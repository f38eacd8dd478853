import LevinNet.Proofs.Storage.VarintForm
import LevinNet.Storage.Cursor

/-
What one read does to its cursor, said in two ways. `Gives r bs x` looks forward: on every input that
begins with `bs`, the read takes just these bytes and yields a value, or fails. `Took c c' bs` looks
back: between two cursors the bytes `bs` were taken, and every level that was opened was closed. Each
primitive has one law of either kind, and `gives_bind` and `Took.trans` put reads together.
-/
namespace LevinNet.Storage

namespace Read

/-- On every input that begins with `bs`, the read comes to `x`; a value takes exactly `bs`. -/
def Gives {α : Type} (r : Read α) (bs : Bytes) : Except StorageError α → Prop
  | .ok a => ∀ rest position depth,
    r ⟨bs ++ rest, position, depth⟩ = .ok a ⟨rest, position + bs.length, depth⟩
  | .error e => ∀ rest position depth, ∃ c, r ⟨bs ++ rest, position, depth⟩ = .error e c

/-- From `c` to `c'` the bytes `bs` were taken, and as many levels are open as before. -/
structure Took (c c' : Cursor) (bs : Bytes) : Prop where
  rest : c.rest = bs ++ c'.rest
  position : c'.position = c.position + bs.length
  depth : c'.depth = c.depth

variable {α β : Type}

/-! ## Sequences of reads -/

/-- A sequence succeeds if both reads do. -/
theorem bind_ok {r : Read α} {f : α → Read β} {c c' : Cursor} {b : β} :
    (r >>= f) c = .ok b c' ↔ ∃ a c₁, r c = .ok a c₁ ∧ f a c₁ = .ok b c' := by
  show EStateM.bind r f c = .ok b c' ↔ _
  unfold EStateM.bind
  cases r c with
  | ok a c₁ =>
    constructor
    · intro h
      exact ⟨a, c₁, rfl, h⟩
    · rintro ⟨a', c', h, hf⟩
      cases h
      exact hf
  | error e c₁ => simp

/-- What comes after a read that succeeds. -/
theorem bind_of_ok {r : Read α} {c c₁ : Cursor} {a : α} (h : r c = .ok a c₁) (f : α → Read β) :
    (r >>= f) c = f a c₁ := by
  show EStateM.bind r f c = _
  unfold EStateM.bind
  rw [h]

/-- Nothing comes after a read that fails. -/
theorem bind_of_error {r : Read α} {c c₁ : Cursor} {e : StorageError} (h : r c = .error e c₁)
    (f : α → Read β) : (r >>= f) c = .error e c₁ := by
  show EStateM.bind r f c = _
  unfold EStateM.bind
  rw [h]

@[simp] theorem pure_ok {a b : α} {c c' : Cursor} :
    (pure a : Read α) c = .ok b c' ↔ a = b ∧ c = c' := by
  show EStateM.Result.ok a c = .ok b c' ↔ _
  simp

@[simp] theorem throw_ok {e : StorageError} {c c' : Cursor} {a : α} :
    (throw e : Read α) c = .ok a c' ↔ False := by
  show EStateM.Result.error e c = .ok a c' ↔ _
  simp

/-! ## Looking forward -/

theorem gives_pure (a : α) : Gives (pure a) [] (.ok a) := by
  intro rest position depth
  rfl

theorem gives_throw (bs : Bytes) (e : StorageError) : Gives (throw e : Read α) bs (.error e) := by
  intro rest position depth
  exact ⟨_, rfl⟩

theorem gives_bind {r : Read α} {f : α → Read β} {bs bs' : Bytes} {a : α} {x : Except StorageError β}
    (hr : Gives r bs (.ok a)) (hf : Gives (f a) bs' x) : Gives (r >>= f) (bs ++ bs') x := by
  cases x with
  | ok b =>
    intro rest position depth
    rw [List.append_assoc, bind_of_ok (hr _ _ _), hf, List.length_append, Nat.add_assoc]
  | error e =>
    intro rest position depth
    rw [List.append_assoc, bind_of_ok (hr _ _ _)]
    exact hf _ _ _

theorem gives_bind_error {r : Read α} {f : α → Read β} {bs : Bytes} {e : StorageError}
    (hr : Gives r bs (.error e)) (bs' : Bytes) : Gives (r >>= f) (bs ++ bs') (.error e) := by
  intro rest position depth
  obtain ⟨c, hc⟩ := hr (bs' ++ rest) position depth
  rw [List.append_assoc]
  exact ⟨c, bind_of_error hc f⟩

/-- A read that is followed by a value made of what it read. -/
theorem gives_map {r : Read α} {bs : Bytes} {a : α} (hr : Gives r bs (.ok a)) (f : α → β) :
    Gives (r >>= fun a => pure (f a)) bs (.ok (f a)) := by
  have h := gives_bind (f := fun a => pure (f a)) hr (gives_pure (f a))
  rwa [List.append_nil] at h

theorem gives_byte (b : UInt8) : Gives byte [b] (.ok b) := by
  intro rest position depth
  rfl

theorem gives_byte_bind {f : UInt8 → Read α} {b : UInt8} {bs : Bytes} {x : Except StorageError α}
    (hf : Gives (f b) bs x) : Gives (byte >>= f) (b :: bs) x :=
  gives_bind (gives_byte b) hf

theorem gives_bytes (bs : Bytes) : Gives (bytes bs.length) bs (.ok bs) := by
  intro rest position depth
  have hholds : Bytes.holds bs.length (bs ++ rest) = true :=
    (Bytes.holds_iff _ _).2 (by simp)
  simp only [bytes, hholds, if_true, List.take_left, List.drop_left]

theorem gives_number (width n : Nat) :
    Gives (number width) (Bytes.ofNat width n) (.ok (n % Bytes.bound width)) := by
  have h := gives_map (gives_bytes (Bytes.ofNat width n)) Bytes.toNat
  rwa [Bytes.length_ofNat, Bytes.toNat_ofNat] at h

/-- A count is read if what it counts can follow. -/
theorem gives_count {f : Nat → Read α} {n minSize : Nat} {count body : Bytes}
    {x : Except StorageError α} (hc : Varint.Form n count) (hsize : n * minSize ≤ body.length)
    (hf : Gives (f n) body x) : Gives (Read.count minSize >>= f) (count ++ body) x := by
  have hcount : ∀ rest position depth,
      Read.count minSize ⟨count ++ (body ++ rest), position, depth⟩ =
        .ok n ⟨body ++ rest, position + count.length, depth⟩ := by
    intro rest position depth
    have hv : varint ⟨count ++ (body ++ rest), position, depth⟩ =
        .ok n ⟨body ++ rest, position + count.length, depth⟩ := by
      simp only [varint, Varint.decode_form hc, List.drop_left]
    have hholds : Bytes.holds (n * minSize) (body ++ rest) = true := by
      rw [Bytes.holds_iff, List.length_append]
      omega
    refine (bind_of_ok hv _).trans ?_
    simp only [hholds, if_true]
  cases x with
  | ok a =>
    intro rest position depth
    rw [List.append_assoc, bind_of_ok (hcount _ _ _), hf, List.length_append, Nat.add_assoc]
  | error e =>
    intro rest position depth
    rw [List.append_assoc, bind_of_ok (hcount _ _ _)]
    exact hf _ _ _

/-! ## Looking back -/

theorem Took.refl (c : Cursor) : Took c c [] := ⟨rfl, rfl, rfl⟩

theorem Took.trans {c c₁ c₂ : Cursor} {bs bs' : Bytes} (h : Took c c₁ bs) (h' : Took c₁ c₂ bs') :
    Took c c₂ (bs ++ bs') := by
  refine ⟨?_, ?_, ?_⟩
  · rw [h.rest, h'.rest, List.append_assoc]
  · rw [h'.position, h.position, List.length_append, Nat.add_assoc]
  · rw [h'.depth, h.depth]

theorem took_byte {c c' : Cursor} {b : UInt8} (h : byte c = .ok b c') : Took c c' [b] := by
  unfold byte at h
  split at h
  · cases h
  · next hc => cases h; exact ⟨hc, rfl, rfl⟩

theorem took_bytes {n : Nat} {c c' : Cursor} {bs : Bytes} (h : bytes n c = .ok bs c') :
    Took c c' bs ∧ bs.length = n := by
  unfold bytes at h
  split at h
  · next hholds =>
    cases h
    have hlen : (c.rest.take n).length = n :=
      List.length_take_of_le ((Bytes.holds_iff _ _).1 hholds)
    refine ⟨⟨?_, ?_, rfl⟩, hlen⟩
    · exact (List.take_append_drop n c.rest).symm
    · show c.position + n = _
      rw [hlen]
  · cases h

theorem took_number {width n : Nat} {c c' : Cursor} (h : number width c = .ok n c') :
    ∃ bs, Took c c' bs ∧ bs.length = width ∧ n = Bytes.toNat bs := by
  obtain ⟨bs, c₁, hbs, hn⟩ := bind_ok.1 h
  obtain ⟨rfl, rfl⟩ := pure_ok.1 hn
  obtain ⟨ht, hlen⟩ := took_bytes hbs
  exact ⟨bs, ht, hlen, rfl⟩

theorem took_varint {n : Nat} {c c' : Cursor} (h : varint c = .ok n c') :
    ∃ bs, Took c c' bs ∧ Varint.Form n bs := by
  unfold varint at h
  split at h
  · next width m hd =>
    cases h
    obtain ⟨hlen, hform⟩ := Varint.form_of_decode hd
    refine ⟨c.rest.take width, ⟨?_, ?_, rfl⟩, hform⟩
    · exact (List.take_append_drop width c.rest).symm
    · show c.position + width = _
      rw [List.length_take_of_le hlen]
  · cases h

theorem took_count {minSize n : Nat} {c c' : Cursor} (h : count minSize c = .ok n c') :
    ∃ bs, Took c c' bs ∧ Varint.Form n bs := by
  obtain ⟨m, c₁, hm, h⟩ := bind_ok.1 h
  split at h
  · cases h; exact took_varint hm
  · cases h

/-- A read inside a level of its own, as seen from outside. -/
theorem took_level {r : Read α} {f : α → Read β} {c c' : Cursor} {b : β}
    (h : (descend >>= fun _ => r >>= fun a => ascend >>= fun _ => f a) c = .ok b c') :
    ∃ a c₁ c₂, r { c with depth := c.depth + 1 } = .ok a c₁ ∧
      (∀ bs, Took { c with depth := c.depth + 1 } c₁ bs → Took c c₂ bs) ∧
      f a c₂ = .ok b c' := by
  obtain ⟨_, c₀, h0, h⟩ := bind_ok.1 h
  obtain ⟨a, c₁, hr, h⟩ := bind_ok.1 h
  obtain ⟨_, c₂, h2, h⟩ := bind_ok.1 h
  cases h0
  cases h2
  refine ⟨a, c₁, _, hr, ?_, h⟩
  rintro bs ⟨hrest, hposition, hdepth⟩
  refine ⟨hrest, hposition, ?_⟩
  show c₁.depth - 1 = c.depth
  rw [hdepth]
  rfl

end Read

end LevinNet.Storage
