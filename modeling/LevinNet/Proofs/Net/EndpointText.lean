import LevinNet.Peer

/-
The text of an endpoint is read back to the endpoint, so it is a key of it.

   1. A decimal number is read back from its digits, whatever follows that is no digit
      (`Digits.read_toDigits`).
   2. So are an IPv4 address and an endpoint (`Ipv4.read_text`, `Endpoint.parse?_text`).
   3. Two endpoints with the same text are the same endpoint (`Endpoint.text_inj`).
-/
namespace LevinNet

namespace Digits

theorem value?_of_isDigit {c : Char} (h : c.isDigit = true) :
    value? 10 c = some (c.toNat - '0'.toNat) := by
  simp only [Char.isDigit, Bool.and_eq_true, decide_eq_true_eq] at h
  have hdigit : '0' ≤ c ∧ c ≤ '9' := h
  have hsmall : c.toNat - '0'.toNat < 10 := by
    have h9 : c.toNat ≤ '9'.toNat := hdigit.2
    simp only [Char.reduceToNat] at h9 ⊢
    omega
  simp only [value?, hdigit, and_self, if_true, hsmall]

theorem number_toDigits (n : Nat) : number 10 (Nat.toDigits 10 n) = n := by
  have hfold : ∀ (cs : List Char) (init : Nat), (∀ c ∈ cs, c.isDigit = true) →
      cs.foldl (fun n c => 10 * n + (value? 10 c).getD 0) init = Nat.ofDigitChars 10 cs init := by
    intro cs
    induction cs with
    | nil => intro init _; rw [List.foldl_nil, Nat.ofDigitChars_nil]
    | cons c cs ih =>
      intro init h
      rw [List.foldl_cons, Nat.ofDigitChars_cons, value?_of_isDigit (h c List.mem_cons_self)]
      exact ih _ fun d hd => h d (List.mem_cons_of_mem c hd)
  have hdigits : ∀ c ∈ Nat.toDigits 10 n, c.isDigit = true :=
    fun c hc => Nat.isDigit_of_mem_toDigits (by decide) (by decide) hc
  rw [number, hfold _ 0 hdigits, Nat.ofDigitChars_ten_toDigits]

/-- Only zero is written with a zero in front. -/
theorem eq_zero_of_head? {n : Nat} (h : (Nat.toDigits 10 n).head? = some '0') : n = 0 := by
  induction n using Nat.strongRecOn with
  | ind n ih =>
    by_cases hn : n < 10
    · simpa [Nat.toDigits_of_lt_base hn] using h
    · -- a longer number begins with the digits of its tenth
      have hpos : 10 ≤ n := Nat.le_of_not_lt hn
      rw [Nat.toDigits_of_base_le (by decide) hpos] at h
      have hhead : (Nat.toDigits 10 (n / 10)).head? = some '0' := by
        cases hd : Nat.toDigits 10 (n / 10) with
        | nil => exact absurd hd Nat.toDigits_ne_nil
        | cons c cs => simpa [hd] using h
      have hzero := ih (n / 10) (by omega) hhead
      omega

/-- Whether no digit stands in front. -/
def NoDigit (cs : List Char) : Prop := cs.takeWhile (fun c => (value? 10 c).isSome) = []

/-- The digits of a number are read to it, if the format takes that many and such a number. -/
theorem read_toDigits {f : Format} {n : Nat} {rest : List Char} (hbase : f.base = 10)
    (hmax : ∀ m ∈ f.maxDigits, (Nat.toDigits 10 n).length ≤ m) (hbound : n < f.bound)
    (hrest : NoDigit rest) : read f (Nat.toDigits 10 n ++ rest) = some (n, rest) := by
  have hall : ∀ c ∈ Nat.toDigits 10 n, (value? 10 c).isSome = true := by
    intro c hc
    rw [value?_of_isDigit (Nat.isDigit_of_mem_toDigits (by decide) (by decide) hc)]
    rfl
  have htake : (Nat.toDigits 10 n ++ rest).takeWhile (fun c => (value? 10 c).isSome)
      = Nat.toDigits 10 n := by
    rw [List.takeWhile_append_of_pos hall, hrest, List.append_nil]
  have hdrop : (Nat.toDigits 10 n ++ rest).dropWhile (fun c => (value? 10 c).isSome) = rest := by
    have h := List.takeWhile_append_dropWhile (p := fun c => (value? 10 c).isSome)
      (l := Nat.toDigits 10 n ++ rest)
    rw [htake] at h
    exact List.append_cancel_left h
  have hempty : (Nat.toDigits 10 n).isEmpty = false := by
    rw [List.isEmpty_eq_false_iff]
    exact Nat.toDigits_ne_nil
  have hlong : f.maxDigits.any (fun m => decide (m < (Nat.toDigits 10 n).length)) = false := by
    cases hm : f.maxDigits with
    | none => rfl
    | some m => simpa using hmax m hm
  -- a zero in front is refused only where digits follow it, and none follow in the text of 0
  have hzero : (!f.leadingZeros && (Nat.toDigits 10 n).head? == some '0'
      && (Nat.toDigits 10 n).length != 1) = false := by
    by_cases hhead : (Nat.toDigits 10 n).head? = some '0'
    · rw [eq_zero_of_head? hhead]
      simp
    · simp [hhead]
  simp only [read, hbase, htake, hdrop, hempty, hlong, hzero, number_toDigits, Nat.not_le.2 hbound,
    if_false, Bool.false_eq_true]

/-- A text that ends, or goes on with another character, has no digit in front. -/
theorem noDigit_nil : NoDigit [] := rfl

theorem noDigit_cons {c : Char} (h : value? 10 c = none) (cs : List Char) : NoDigit (c :: cs) := by
  simp [NoDigit, h]

end Digits

/-! ## Addresses -/

namespace Ipv4

theorem readOctet_toDigits (n : UInt8) {rest : List Char} (hrest : Digits.NoDigit rest) :
    readOctet (Nat.toDigits 10 n.toNat ++ rest) = some (n, rest) := by
  have hlt := n.toNat_lt
  have hlen : (Nat.toDigits 10 n.toNat).length ≤ 3 :=
    (Nat.length_toDigits_le_iff (by decide) (by decide)).2 (by omega)
  have hread : Digits.read ⟨10, some 3, false, 256⟩ (Nat.toDigits 10 n.toNat ++ rest)
      = some (n.toNat, rest) := by
    apply Digits.read_toDigits rfl ?_ hlt hrest
    intro m hm
    cases hm
    exact hlen
  rw [readOctet, hread]
  show some (UInt8.ofNat n.toNat, rest) = some (n, rest)
  rw [UInt8.ofNat_toNat]

theorem toList_text (ip : Ipv4) :
    ip.text.toList = Nat.toDigits 10 ip.a.toNat ++ '.' :: (Nat.toDigits 10 ip.b.toNat ++
      '.' :: (Nat.toDigits 10 ip.c.toNat ++ '.' :: Nat.toDigits 10 ip.d.toNat)) := by
  have hpoint : (toString ".").toList = ['.'] := rfl
  simp [text, Nat.toString_eq_repr, Nat.toList_repr, hpoint]

/-- The text of an address is read to the address, if no digit is behind it. -/
theorem read_text (ip : Ipv4) {rest : List Char} (hrest : Digits.NoDigit rest) :
    read (ip.text.toList ++ rest) = some (ip, rest) := by
  have hpoint : ∀ cs, Digits.NoDigit ('.' :: cs) := Digits.noDigit_cons (by decide)
  have hskip : ∀ cs, Digits.skip '.' ('.' :: cs) = some cs := fun cs => rfl
  simp only [toList_text, read, List.append_assoc, List.cons_append, Option.bind_eq_bind,
    Option.bind_some, readOctet_toDigits _ (hpoint _), readOctet_toDigits _ hrest, hskip]
  rfl

end Ipv4

namespace Endpoint

theorem toList_text (e : Endpoint) :
    e.text.toList = e.ip.text.toList ++ ':' :: Nat.toDigits 10 e.port.toNat := by
  have hcolon : (toString ":").toList = [':'] := rfl
  have htext : (toString e.ip.text).toList = e.ip.text.toList := rfl
  simp [text, Nat.toString_eq_repr, Nat.toList_repr, hcolon, htext]

/-- The text of an endpoint is read back to the endpoint. -/
theorem parse?_text (e : Endpoint) : parse? e.text = some e := by
  have hport : Digits.read ⟨10, none, true, 65536⟩ (Nat.toDigits 10 e.port.toNat)
      = some (e.port.toNat, []) := by
    have h := Digits.read_toDigits (f := ⟨10, none, true, 65536⟩) rfl (fun m hm => by cases hm)
      e.port.toNat_lt Digits.noDigit_nil
    rwa [List.append_nil] at h
  have hread : read e.text.toList = some (e, []) := by
    rw [toList_text, read, Ipv4.read_text e.ip (Digits.noDigit_cons (by decide) _)]
    simp only [Option.bind_eq_bind, Option.bind_some, readPort, Digits.skip, if_true, hport,
      UInt16.ofNat_toNat]
    rfl
  rw [parse?, hread]

/-- The text of an endpoint tells which it is. -/
theorem text_inj {e e' : Endpoint} : e.text = e'.text ↔ e = e' := by
  constructor
  · intro h
    have hread := parse?_text e
    rw [h, parse?_text e'] at hread
    exact (Option.some.inj hread).symm
  · intro h
    rw [h]

end Endpoint

end LevinNet
