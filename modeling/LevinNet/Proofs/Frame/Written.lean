import LevinNet.Proofs.Frame.Parsing

/-
Written frames are read back.

   1. The header that the 33 bytes of a written header hold is that header (`Header.parse_encode`).
   2. A message whose header announces its payload, within the ceiling, is the first result of every
      string that begins with its written form, and nothing behind it is taken (`Frame.next?_encode`).
   3. So written messages one behind the other are parsed to these messages (`Frame.parse_encodeAll`).
-/
namespace LevinNet

namespace Header

/-- A number that fits its bytes is read back. -/
theorem toNat_field {width n : Nat} (h : n < Bytes.bound width) :
    Bytes.toNat (Bytes.ofNat width n) = n := by
  rw [Bytes.toNat_ofNat, Nat.mod_eq_of_lt h]

theorem parse_encode (h : Header) : parse h.encode = .ok h := by
  have hsignature : (h.encode.drop 0).take 8 = Bytes.ofNat 8 signature.toNat := rfl
  have hlength : (h.encode.drop 8).take 8 = Bytes.ofNat 8 h.length.toNat := rfl
  have hexpects : (h.encode.drop 16).take 1 = [if h.expectsResponse then 1 else 0] := rfl
  have hcommand : (h.encode.drop 17).take 4 = Bytes.ofNat 4 h.command.toNat := rfl
  have hcode : (h.encode.drop 21).take 4 = Bytes.ofNat 4 h.returnCode.toUInt32.toNat := rfl
  have hflags : (h.encode.drop 25).take 4 = Bytes.ofNat 4 h.flags.bits.toNat := rfl
  have hversion : (h.encode.drop 29).take 4 = Bytes.ofNat 4 h.version.toNat := rfl
  have hflag : (Bytes.toNat [if h.expectsResponse then 1 else 0] != 0) = h.expectsResponse := by
    cases h.expectsResponse <;> rfl
  have hword (n : UInt64) : Bytes.toNat (Bytes.ofNat 8 n.toNat) = n.toNat := toNat_field n.toNat_lt
  have hhalf (n : UInt32) : Bytes.toNat (Bytes.ofNat 4 n.toNat) = n.toNat := toNat_field n.toNat_lt
  simp only [parse, field, hsignature, hlength, hexpects, hcommand, hcode, hflags, hversion, hflag,
    hword, hhalf, UInt64.ofNat_toNat, UInt32.ofNat_toNat,
    Int32.toInt32_toUInt32, ne_eq, not_true, if_false]

end Header

/-- A message is well formed for a reader with this ceiling: its header announces its payload, and the
payload is not too long for the reader. -/
structure Message.Fits (ceiling : Nat) (m : Message) : Prop where
  announced : m.payload.length = m.header.length.toNat
  short : m.payload.length ≤ FrameReader.longest ceiling

/-- Some messages as they are written one behind the other. -/
def Message.encodeAll (ms : List Message) : Bytes := ms.flatMap Message.encode

namespace Frame

variable {ceiling : Nat}

theorem next?_encode {m : Message} (h : m.Fits ceiling) (rest : Bytes) :
    next? ceiling (m.encode ++ rest) = some (.ok m, rest) := by
  rw [Message.encode, List.append_assoc]
  exact next?_whole m.header.length_encode m.header.parse_encode (h.announced ▸ h.short)
    h.announced rest

theorem parse_encodeAll {ms : List Message} (h : ∀ m ∈ ms, m.Fits ceiling) (rest : Bytes) :
    parse ceiling (Message.encodeAll ms ++ rest)
      = (ms.map .ok ++ (parse ceiling rest).1, (parse ceiling rest).2) := by
  induction ms with
  | nil => rfl
  | cons m ms ih =>
    have hm := h m List.mem_cons_self
    have hms := ih fun m' hm' => h m' (List.mem_cons_of_mem _ hm')
    rw [Message.encodeAll, List.flatMap_cons, List.append_assoc, parse_of_some (next?_encode hm _)]
    rw [Message.encodeAll] at hms
    rw [hms]
    rfl

end Frame

end LevinNet
