import LevinNet.Proofs.Storage.Refusals

/-
Which objects and arrays are open where a reader stops.

   1. `Stopped piece pre e opened` says, with the grammar alone, that reading a piece comes to its end
      with the error `e` behind the bytes `pre`, and which objects and arrays are begun and not finished
      there, innermost first. All members of a container in front of the one that is not finished are
      forms.
   2. The bytes and the error tell which containers are open (`Stopped.unique`): no form of a piece is a
      front of `pre` (`Stopped.not_form`), so two ways to cut `pre` into members are the same.
-/
namespace LevinNet.Varint

/-- A number in front of an input is one number, in one form. -/
theorem Form.split {n n' : Nat} {count count' rest rest' : Bytes} (h : Form n count)
    (h' : Form n' count') (heq : count ++ rest = count' ++ rest') :
    n = n' ∧ count = count' ∧ rest = rest' := by
  have hread := decode_form h rest
  rw [heq, decode_form h' rest'] at hread
  simp only [Except.ok.injEq, Prod.mk.injEq] at hread
  obtain ⟨hlen, rfl⟩ := hread
  obtain ⟨hcount, hrest⟩ := List.append_inj heq hlen.symm
  exact ⟨rfl, hcount, hrest⟩

end LevinNet.Varint

namespace LevinNet.Storage

/-! ## Containers and their members -/

/-- What is open while the members of a container are read. Strings open no level. -/
def Container.opened : Container → List Container
  | .string => []
  | container => [container]

/-- `bs` is made of so many members of a container: entries, elements or bytes. -/
def Members : Container → Nat → Bytes → Prop
  | .section, m, bs => ∃ entries : Section, entries.length = m ∧ EntriesForm entries bs
  | .array k, m, bs => ∃ items, items.length = m ∧ ItemsForm k items bs
  | .string, m, bs => bs.length = m

/-- What is read in one go, the levels of a container left to its members. -/
inductive Piece where
  /-- The count of a container and its members. -/
  | counted (container : Container)
  | member (container : Container)
  /-- The value behind a tag. -/
  | tagged (tag : UInt8)
  /-- A value of a kind, without its tag. -/
  | value (k : Kind)

/-- `bs` is a form of a piece. -/
def Piece.Form : Piece → Bytes → Prop
  | .counted container, bs =>
    ∃ n count body, Varint.Form n count ∧ Members container n body ∧ bs = count ++ body
  | .member container, bs => Members container 1 bs
  | .tagged tag, bs => ∃ v : Value, v.tag = tag ∧ v.Form bs
  | .value k, bs => ∃ v : Value, v.kind = k ∧ v.Form bs

/-! ## Where reading stops -/

/-- The errors for a number that is cut off or of a width that is not supported. -/
inductive Unread : StorageError → Prop where
  | truncated (needed available : Nat) : Unread (.truncated needed available)
  | unsupportedWidth : Unread (.varint .unsupportedWidth)

/-- Reading an entry stops in front of its tag, behind these bytes. -/
inductive LabelStop : Bytes → StorageError → Prop where
  | noLength (needed available : Nat) : LabelStop [] (.truncated needed available)
  | noName (length : UInt8) (needed available : Nat) :
    LabelStop [length] (.truncated needed available)
  | noText {length : UInt8} {name : Bytes} :
    name.length = length.toNat → LabelStop (length :: name) .invalidName
  | noTag {length : UInt8} {name : Bytes} (needed available : Nat) :
    name.length = length.toNat → LabelStop (length :: name) (.truncated needed available)

/-- Reading an array in an array stops at its tag. -/
inductive TagStop : Bytes → StorageError → Prop where
  | noTag (needed available : Nat) : TagStop [] (.truncated needed available)
  | noArray {tag : UInt8} : tag < 128 → TagStop [tag] (.unknownType tag)

/-- Reading a piece stops with an error behind the bytes `pre`, and these objects and arrays are open
there, innermost first. -/
inductive Stopped : Piece → Bytes → StorageError → List Container → Prop where
  /-- There is no level for the container, so that it is not opened. -/
  | tooDeep {container : Container} :
    container ≠ .string → Stopped (.counted container) [] .depthExceeded []
  | noCount {container : Container} {e : StorageError} :
    Unread e → Stopped (.counted container) [] e container.opened
  | countTooLarge {container : Container} {n left : Nat} {count : Bytes} :
    Varint.Form n count → left < n * container.minSize →
    Stopped (.counted container) count (.countTooLarge n left) container.opened
  | member {container : Container} {n m : Nat} {count body front : Bytes} {e : StorageError}
      {inner : List Container} :
    Varint.Form n count → Members container m body → m < n →
    Stopped (.member container) front e inner →
    Stopped (.counted container) (count ++ (body ++ front)) e (inner ++ container.opened)
  | label {front : Bytes} {e : StorageError} :
    LabelStop front e → Stopped (.member .section) front e []
  | entry {length tag : UInt8} {name front : Bytes} {e : StorageError} {inner : List Container} :
    name.length = length.toNat → Stopped (.tagged tag) front e inner →
    Stopped (.member .section) (length :: (name ++ tag :: front)) e inner
  | elementTag {front : Bytes} {e : StorageError} :
    TagStop front e → Stopped (.member (.array .array)) front e []
  | nested {tag : UInt8} {front : Bytes} {e : StorageError} {inner : List Container} :
    128 ≤ tag → Stopped (.tagged tag) front e inner →
    Stopped (.member (.array .array)) (tag :: front) e inner
  | element {k : Kind} {front : Bytes} {e : StorageError} {inner : List Container} :
    k ≠ .array → Stopped (.value k) front e inner → Stopped (.member (.array k)) front e inner
  | misplaced {tag : UInt8} :
    Misplaced .entryTag tag → Stopped (.tagged tag) [] (.unknownType tag) []
  | value {tag : UInt8} {k : Kind} {front : Bytes} {e : StorageError} {inner : List Container} :
    k.tag = tag → k ≠ .array → Stopped (.value k) front e inner → Stopped (.tagged tag) front e inner
  | array {tag : UInt8} {k : Kind} {front : Bytes} {e : StorageError} {inner : List Container} :
    k.arrayTag = tag → Stopped (.counted (.array k)) front e inner →
    Stopped (.tagged tag) front e inner
  | number {k : Kind} (needed available : Nat) :
    k ≠ .string → k ≠ .object → k ≠ .array → Stopped (.value k) [] (.truncated needed available) []
  | string {front : Bytes} {e : StorageError} {inner : List Container} :
    Stopped (.counted .string) front e inner → Stopped (.value .string) front e inner
  | object {front : Bytes} {e : StorageError} {inner : List Container} :
    Stopped (.counted .section) front e inner → Stopped (.value .object) front e inner

/-! ## Forms end by themselves -/

/-- A read takes the same bytes off the same input. -/
theorem Read.Gives.split {α : Type} {r : Read α} {a a' : α} {bs bs' rest rest' : Bytes}
    (h : Read.Gives r bs (.ok a)) (h' : Read.Gives r bs' (.ok a'))
    (heq : bs ++ rest = bs' ++ rest') : bs = bs' ∧ rest = rest' := by
  have hread := h rest 0 0
  rw [heq, h' rest' 0 0] at hread
  simp only [EStateM.Result.ok.injEq, Cursor.mk.injEq] at hread
  obtain ⟨-, rfl, -⟩ := hread
  exact ⟨List.append_cancel_right heq, rfl⟩

theorem entries_split {entries entries' : Section} {bs bs' rest rest' : Bytes}
    (h : EntriesForm entries bs) (h' : EntriesForm entries' bs')
    (hlen : entries.length = entries'.length) (heq : bs ++ rest = bs' ++ rest') : rest = rest' := by
  -- enough levels for both
  let levels := max (Value.entriesDepth entries) (Value.entriesDepth entries')
  obtain ⟨hs, ha⟩ := Read.gives_within levels
  have hread := Read.gives_entries hs ha h
  have hread' := Read.gives_entries hs ha h'
  rw [Read.upTo_of_le (Nat.le_max_left _ _)] at hread
  rw [Read.upTo_of_le (Nat.le_max_right _ _), ← hlen] at hread'
  exact (hread.split hread' heq).2

theorem items_split {k : Kind} {items items' : List Value} {bs bs' rest rest' : Bytes}
    (h : ItemsForm k items bs) (h' : ItemsForm k items' bs')
    (hlen : items.length = items'.length) (heq : bs ++ rest = bs' ++ rest') : rest = rest' := by
  let levels := max (Value.itemsDepth items) (Value.itemsDepth items')
  obtain ⟨hs, ha⟩ := Read.gives_within levels
  have hread := Read.gives_items hs ha h
  have hread' := Read.gives_items hs ha h'
  rw [Read.upTo_of_le (Nat.le_max_left _ _)] at hread
  rw [Read.upTo_of_le (Nat.le_max_right _ _), ← hlen] at hread'
  exact (hread.split hread' heq).2

/-- So many members end at the same place, however the input is cut. -/
theorem Members.split {container : Container} {m : Nat} {bs bs' rest rest' : Bytes}
    (h : Members container m bs) (h' : Members container m bs') (heq : bs ++ rest = bs' ++ rest') :
    rest = rest' := by
  cases container with
  | «section» =>
    obtain ⟨entries, rfl, h⟩ := h
    obtain ⟨entries', hlen, h'⟩ := h'
    exact entries_split h h' hlen.symm heq
  | array k =>
    obtain ⟨items, rfl, h⟩ := h
    obtain ⟨items', hlen, h'⟩ := h'
    exact items_split h h' hlen.symm heq
  | string => exact (List.append_inj heq (h.trans h'.symm)).2

/-- The first of some members, and the others. -/
theorem Members.uncons {container : Container} {m : Nat} {bs : Bytes}
    (h : Members container (m + 1) bs) :
    ∃ first others, bs = first ++ others ∧ Members container 1 first ∧ Members container m others := by
  cases container with
  | «section» =>
    obtain ⟨entries, hlen, h⟩ := h
    cases h with
    | nil => cases hlen
    | cons hname hv hes =>
      refine ⟨_, _, ?_, ⟨_, rfl, .cons hname hv .nil⟩, _, Nat.succ.inj hlen, hes⟩
      simp only [List.append_nil, List.cons_append, List.append_assoc]
  | array k =>
    obtain ⟨items, hlen, h⟩ := h
    cases h with
    | nil => cases hlen
    | cons hk hv his =>
      refine ⟨_, _, ?_, ⟨_, rfl, .cons hk hv .nil⟩, _, Nat.succ.inj hlen, his⟩
      rw [List.append_nil]
    | tagged hk hv his =>
      refine ⟨_, _, ?_, ⟨_, rfl, .tagged hk hv .nil⟩, _, Nat.succ.inj hlen, his⟩
      simp only [List.append_nil, List.cons_append]
  | string =>
    cases bs with
    | nil => cases h
    | cons b bs => exact ⟨[b], bs, rfl, rfl, Nat.succ.inj h⟩

theorem Members.nil_of_zero {container : Container} {bs : Bytes} (h : Members container 0 bs) :
    bs = [] := by
  cases container with
  | «section» =>
    obtain ⟨entries, hlen, h⟩ := h
    rw [List.length_eq_zero_iff.1 hlen] at h
    cases h
    rfl
  | array k =>
    obtain ⟨items, hlen, h⟩ := h
    rw [List.length_eq_zero_iff.1 hlen] at h
    cases h
    rfl
  | string => exact List.length_eq_zero_iff.1 h

/-- Behind the fewer of two numbers of members there is one more member. -/
theorem Members.overlap {container : Container} {m m' : Nat} {bs bs' rest rest' : Bytes}
    (h : Members container m bs) (h' : Members container m' bs') (hlt : m < m')
    (heq : bs ++ rest = bs' ++ rest') :
    ∃ next more, Members container 1 next ∧ rest = next ++ more := by
  induction m generalizing m' bs bs' with
  | zero =>
    obtain ⟨m', rfl⟩ := Nat.exists_eq_succ_of_ne_zero (Nat.ne_of_gt hlt)
    obtain ⟨next, others, rfl, hnext, -⟩ := h'.uncons
    rw [h.nil_of_zero, List.nil_append, List.append_assoc] at heq
    exact ⟨next, _, hnext, heq⟩
  | succ m ih =>
    obtain ⟨m', rfl⟩ := Nat.exists_eq_succ_of_ne_zero (Nat.ne_of_gt (Nat.zero_lt_of_lt hlt))
    obtain ⟨first, others, rfl, hfirst, hothers⟩ := h.uncons
    obtain ⟨first', others', rfl, hfirst', hothers'⟩ := h'.uncons
    rw [List.append_assoc, List.append_assoc] at heq
    exact ih hothers hothers' (Nat.lt_of_succ_lt_succ hlt) (hfirst.split hfirst' heq)

/-! ## Forms of pieces -/

theorem Members.length_pos {container : Container} {bs : Bytes} (h : Members container 1 bs) :
    0 < bs.length := by
  cases container with
  | «section» =>
    obtain ⟨entries, hlen, h⟩ := h
    have := length_of_entries h
    omega
  | array k =>
    obtain ⟨items, hlen, h⟩ := h
    have hsize := minSize_le_of_items h
    rw [hlen, Nat.one_mul] at hsize
    exact Nat.lt_of_lt_of_le (by cases k <;> decide) hsize
  | string => exact Nat.lt_of_lt_of_eq Nat.one_pos h.symm

theorem Piece.Form.ne_nil {piece : Piece} {bs : Bytes} (h : piece.Form bs) : bs ≠ [] := by
  have hpos : 0 < bs.length := by
    cases piece with
    | counted container =>
      obtain ⟨n, count, body, hcount, -, rfl⟩ := h
      have := Varint.length_pos_of_form hcount
      rw [List.length_append]
      omega
    | member container => exact Members.length_pos h
    | tagged tag =>
      obtain ⟨v, -, hv⟩ := h
      exact length_pos_of_form hv
    | value k =>
      obtain ⟨v, -, hv⟩ := h
      exact length_pos_of_form hv
  exact List.length_pos_iff.1 hpos

theorem Kind.tag_injective {k l : Kind} (h : k.tag = l.tag) : k = l :=
  Option.some.inj (by rw [← Kind.ofTag?_tag, h, Kind.ofTag?_tag])

theorem Kind.arrayTag_injective {k l : Kind} (h : k.arrayTag = l.arrayTag) : k = l :=
  Option.some.inj (by rw [← Kind.ofTag?_arrayTag_mod, h, Kind.ofTag?_arrayTag_mod])

theorem Kind.tag_ne_arrayTag (k l : Kind) : k.tag ≠ l.arrayTag := by
  intro h
  exact Kind.not_le_tag k (h ▸ Kind.le_arrayTag l)

/-- The kind of a value is in its tag, if its tag is not that of an array. -/
theorem kind_of_tag {v : Value} {k : Kind} (h : k.tag = v.tag) : v.kind = k := by
  by_cases hv : v.kind = .array
  · obtain ⟨l, items, rfl⟩ := Value.exists_of_kind_array hv
    exact absurd h (Kind.tag_ne_arrayTag k l)
  · rw [Value.tag_of_kind_ne hv] at h
    exact (Kind.tag_injective h).symm

theorem array_of_tag {v : Value} {k : Kind} (h : k.arrayTag = v.tag) :
    ∃ items, v = .array k items := by
  by_cases hv : v.kind = .array
  · obtain ⟨l, items, rfl⟩ := Value.exists_of_kind_array hv
    rw [Kind.arrayTag_injective h]
    exact ⟨items, rfl⟩
  · rw [Value.tag_of_kind_ne hv] at h
    exact absurd h.symm (Kind.tag_ne_arrayTag _ _)

theorem entry_of_form {bs : Bytes} (h : (Piece.member .section).Form bs) :
    ∃ (length : UInt8) (name : Bytes) (v : Value) (body : Bytes),
      name.length = length.toNat ∧ v.Form body ∧ bs = length :: (name ++ v.tag :: body) := by
  obtain ⟨entries, hlen, h⟩ := h
  cases h with
  | nil => cases hlen
  | @cons name v body others _ hname hv hes =>
    rw [List.length_eq_zero_iff.1 (Nat.succ.inj hlen)] at hes
    cases hes
    refine ⟨_, _, v, body, ?_, hv, by rw [List.append_nil]⟩
    rw [UInt8.toNat_ofNat']
    simp only [maxNameLength] at hname
    omega

theorem element_of_form {k : Kind} {bs : Bytes} (hk : k ≠ .array)
    (h : (Piece.member (.array k)).Form bs) : (Piece.value k).Form bs := by
  obtain ⟨items, hlen, h⟩ := h
  cases h with
  | nil => cases hlen
  | @cons v body items others _ hv his =>
    have hnone : Members (.array v.kind) 0 others := ⟨items, Nat.succ.inj hlen, his⟩
    rw [hnone.nil_of_zero, List.append_nil]
    exact ⟨v, rfl, hv⟩
  | tagged _ _ _ => exact absurd rfl hk

theorem nested_of_form {bs : Bytes} (h : (Piece.member (.array .array)).Form bs) :
    ∃ (v : Value) (body : Bytes), 128 ≤ v.tag ∧ v.Form body ∧ bs = v.tag :: body := by
  obtain ⟨items, hlen, h⟩ := h
  generalize hk : Kind.array = k at h
  cases h with
  | nil => cases hlen
  | cons hne _ _ => exact absurd hk.symm hne
  | @tagged v body items others hv hform his =>
    have hnone : Members (.array .array) 0 others := ⟨items, Nat.succ.inj hlen, his⟩
    obtain ⟨l, below, rfl⟩ := Value.exists_of_kind_array hv
    rw [hnone.nil_of_zero, List.append_nil]
    exact ⟨.array l below, body, Kind.le_arrayTag l, hform, rfl⟩

/-- What a value of a container's kind is made of, and an array behind its tag. -/
theorem counted_of_form {v : Value} {bs : Bytes} (h : v.Form bs) :
    (v.kind = .string → (Piece.counted .string).Form bs) ∧
    (v.kind = .object → (Piece.counted .section).Form bs) ∧
    ∀ k items, v = .array k items → (Piece.counted (.array k)).Form bs := by
  refine ⟨fun hk => ?_, fun hk => ?_, ?_⟩
  · cases h <;> first
      | exact ⟨_, _, _, ‹_›, rfl, rfl⟩
      | cases hk
  · cases h <;> first
      | exact ⟨_, _, _, ‹_›, ⟨_, rfl, ‹_›⟩, rfl⟩
      | cases hk
  · rintro k items rfl
    cases h with
    | array hcount hitems => exact ⟨_, _, _, hcount, ⟨_, rfl, hitems⟩, rfl⟩

/-! ## The bytes and the error tell what is open -/

theorem LabelStop.not_entry {front name rest : Bytes} {length tag : UInt8} {e : StorageError}
    (h : LabelStop front e) (hlen : name.length = length.toNat) :
    front ≠ length :: (name ++ tag :: rest) := by
  intro heq
  cases h with
  | noLength _ _ => cases heq
  | noName _ _ _ => simp at heq
  | noText hlen' | noTag _ _ hlen' =>
    obtain ⟨rfl, hname⟩ := List.cons.inj heq
    have := congrArg List.length hname
    simp only [List.length_append, List.length_cons] at this
    omega

theorem TagStop.not_nested {front rest : Bytes} {tag : UInt8} {e : StorageError}
    (h : TagStop front e) (hle : 128 ≤ tag) : front ≠ tag :: rest := by
  intro heq
  cases h with
  | noTag _ _ => cases heq
  | noArray hlt =>
    obtain ⟨rfl, -⟩ := List.cons.inj heq
    exact absurd hlt (UInt8.not_lt.2 hle)

/-- The length byte tells where a name ends. -/
theorem label_split {name name' rest rest' : Bytes} {length length' tag tag' : UInt8}
    (hlen : name.length = length.toNat) (hlen' : name'.length = length'.toNat)
    (heq : length :: (name ++ tag :: rest) = length' :: (name' ++ tag' :: rest')) :
    tag = tag' ∧ rest = rest' := by
  obtain ⟨rfl, hname⟩ := List.cons.inj heq
  obtain ⟨-, htagged⟩ := List.append_inj hname (hlen.trans hlen'.symm)
  exact List.cons.inj htagged

theorem Stopped.not_form {piece : Piece} {pre : Bytes} {e : StorageError} {opened : List Container}
    (h : Stopped piece pre e opened) : ∀ {bs rest : Bytes}, piece.Form bs → pre ≠ bs ++ rest := by
  have hnil : ∀ {piece : Piece} {bs rest : Bytes}, piece.Form bs → [] ≠ bs ++ rest := by
    intro piece bs rest hform heq
    exact hform.ne_nil (List.append_eq_nil_iff.1 heq.symm).1
  induction h with
  | tooDeep _ => exact hnil
  | noCount _ => exact hnil
  | misplaced _ => exact hnil
  | number _ _ _ _ _ => exact hnil
  | @countTooLarge container n left count hcount hlt =>
    rintro bs rest ⟨n', count', body, hcount', hbody, rfl⟩ heq
    rw [← List.append_nil count, List.append_assoc] at heq
    obtain ⟨rfl, -, hrest⟩ := hcount.split hcount' heq
    have hpos : 0 < n := Nat.pos_of_mul_pos_right (Nat.zero_lt_of_lt hlt)
    obtain ⟨m, rfl⟩ := Nat.exists_eq_succ_of_ne_zero (Nat.ne_of_gt hpos)
    obtain ⟨first, others, rfl, hfirst, -⟩ := hbody.uncons
    rw [List.append_assoc] at hrest
    exact hnil (show (Piece.member container).Form first from hfirst) hrest
  | @member container n m count body front e inner hcount hbody hlt _ ih =>
    rintro bs rest ⟨n', count', body', hcount', hbody', rfl⟩ heq
    rw [List.append_assoc] at heq
    obtain ⟨rfl, -, heq⟩ := hcount.split hcount' heq
    obtain ⟨next, more, hnext, hfront⟩ := hbody.overlap hbody' hlt heq
    exact ih hnext hfront
  | label hstop =>
    intro bs rest hform heq
    obtain ⟨length, name, v, body, hlen, -, rfl⟩ := entry_of_form hform
    rw [List.cons_append, List.append_assoc, List.cons_append] at heq
    exact hstop.not_entry hlen heq
  | @entry length tag name front e inner hlen _ ih =>
    intro bs rest hform heq
    obtain ⟨length', name', v, body, hlen', hv, rfl⟩ := entry_of_form hform
    rw [List.cons_append, List.append_assoc, List.cons_append] at heq
    obtain ⟨rfl, hfront⟩ := label_split hlen hlen' heq
    exact ih ⟨v, rfl, hv⟩ hfront
  | elementTag hstop =>
    intro bs rest hform heq
    obtain ⟨v, body, hle, -, rfl⟩ := nested_of_form hform
    exact hstop.not_nested hle heq
  | nested _ _ ih =>
    intro bs rest hform heq
    obtain ⟨v, body, -, hv, rfl⟩ := nested_of_form hform
    obtain ⟨rfl, hfront⟩ := List.cons.inj heq
    exact ih ⟨v, rfl, hv⟩ hfront
  | element hk _ ih =>
    intro bs rest hform
    exact ih (element_of_form hk hform)
  | value htag _ _ ih =>
    rintro bs rest ⟨v, rfl, hv⟩
    exact ih ⟨v, kind_of_tag htag, hv⟩
  | array htag _ ih =>
    rintro bs rest ⟨v, rfl, hv⟩
    obtain ⟨items, rfl⟩ := array_of_tag htag
    exact ih ((counted_of_form hv).2.2 _ _ rfl)
  | string _ ih =>
    rintro bs rest ⟨v, hk, hv⟩
    exact ih ((counted_of_form hv).1 hk)
  | object _ ih =>
    rintro bs rest ⟨v, hk, hv⟩
    exact ih ((counted_of_form hv).2.1 hk)

theorem Stopped.ne_nil_of_countTooLarge {piece : Piece} {pre : Bytes} {n left : Nat}
    {opened : List Container} (h : Stopped piece pre (.countTooLarge n left) opened) : pre ≠ [] := by
  generalize he : StorageError.countTooLarge n left = e at h
  induction h with
  | tooDeep _ | misplaced _ | number _ _ _ _ _ => cases he
  | noCount hunread =>
    subst he
    cases hunread
  | countTooLarge hcount _ => exact List.length_pos_iff.1 (Varint.length_pos_of_form hcount)
  | member hcount _ _ _ _ =>
    have hpos := List.length_pos_iff.1 (Varint.length_pos_of_form hcount)
    exact fun hnil => hpos (List.append_eq_nil_iff.1 hnil).1
  | label hstop =>
    subst he
    cases hstop
  | elementTag hstop =>
    subst he
    cases hstop
  | entry _ _ _ | nested _ _ _ => exact List.cons_ne_nil _ _
  | element _ _ ih | value _ _ _ ih | array _ _ ih | string _ ih | object _ ih => exact ih he

/-- Two ways to cut the same bytes into members, and what stands behind them, are one. -/
theorem Stopped.member_unique {container : Container} {n n' m m' : Nat}
    {count count' body body' front front' : Bytes} {e : StorageError} {inner inner' : List Container}
    (hcount : Varint.Form n count) (hbody : Members container m body)
    (hfront : Stopped (.member container) front e inner) (hcount' : Varint.Form n' count')
    (hbody' : Members container m' body') (hfront' : Stopped (.member container) front' e inner')
    (heq : count ++ (body ++ front) = count' ++ (body' ++ front')) : front = front' := by
  obtain ⟨-, -, heq⟩ := hcount.split hcount' heq
  rcases Nat.lt_trichotomy m m' with hlt | rfl | hgt
  · obtain ⟨next, more, hnext, hmore⟩ := hbody.overlap hbody' hlt heq
    exact absurd hmore (hfront.not_form hnext)
  · exact hbody.split hbody' heq
  · obtain ⟨next, more, hnext, hmore⟩ := hbody'.overlap hbody hgt heq.symm
    exact absurd hmore (hfront'.not_form hnext)

theorem namesKind_tag (k : Kind) : NamesKind k.tag := by
  cases k <;> exact ⟨by decide, by decide⟩

theorem namesKind_arrayTag (k : Kind) : NamesKind k.arrayTag := by
  cases k <;> exact ⟨by decide, by decide⟩

/-- No value stands behind a tag that is misplaced. -/
theorem not_misplaced {tag : UInt8} {k : Kind} (h : k.tag = tag ∧ k ≠ .array ∨ k.arrayTag = tag) :
    ¬ Misplaced .entryTag tag := by
  intro hbad
  have hnames : NamesKind tag := by
    rcases h with ⟨rfl, -⟩ | rfl
    · exact namesKind_tag k
    · exact namesKind_arrayTag k
  cases hbad with
  | noKind _ hnone => exact hnone hnames
  | bareArray =>
    rcases h with ⟨htag, hk⟩ | htag
    · revert htag
      cases k <;> first | exact absurd rfl hk | decide
    · revert htag
      cases k <;> decide

theorem Stopped.unique_of_eq {piece : Piece} {pre pre' : Bytes} {e : StorageError}
    {opened opened' : List Container} (h : Stopped piece pre e opened)
    (h' : Stopped piece pre' e opened') (hpre : pre = pre') : opened = opened' := by
  have hcount_ne : ∀ {n : Nat} {count rest : Bytes}, Varint.Form n count → [] ≠ count ++ rest := by
    intro n count rest hcount hnil
    have hpos := List.length_pos_iff.1 (Varint.length_pos_of_form hcount)
    exact hpos (List.append_eq_nil_iff.1 hnil.symm).1
  -- a count that was refused has no members behind it
  have hcount_last : ∀ {container n n' left count count' body front inner},
      Varint.Form n count → Varint.Form n' count' →
      Stopped (.member container) front (.countTooLarge n left) inner →
      count ≠ count' ++ (body ++ front) := by
    intro container n n' left count count' body front inner hcount hcount' hfront heq
    rw [← List.append_nil count] at heq
    obtain ⟨-, -, hnil⟩ := hcount.split hcount' heq
    exact hfront.ne_nil_of_countTooLarge (List.append_eq_nil_iff.1 hnil.symm).2
  induction h generalizing pre' opened' with
  | tooDeep _ =>
    cases h' with
    | tooDeep _ => rfl
    | noCount hunread => cases hunread
    | member hcount _ _ _ => exact absurd hpre (hcount_ne hcount)
  | noCount hunread =>
    cases h' with
    | tooDeep _ => cases hunread
    | noCount _ => rfl
    | countTooLarge _ _ => cases hunread
    | member hcount _ _ _ => exact absurd hpre (hcount_ne hcount)
  | countTooLarge hcount _ =>
    cases h' with
    | noCount hunread => cases hunread
    | countTooLarge _ _ => rfl
    | member hcount' _ _ hfront => exact absurd hpre (hcount_last hcount hcount' hfront)
  | member hcount hbody _ hfront ih =>
    cases h' with
    | tooDeep _ | noCount _ => exact absurd hpre.symm (hcount_ne hcount)
    | countTooLarge hcount' _ => exact absurd hpre.symm (hcount_last hcount' hcount hfront)
    | member hcount' hbody' _ hfront' =>
      have hsame := member_unique hcount hbody hfront hcount' hbody' hfront' hpre
      rw [ih hfront' hsame]
  | label hstop =>
    cases h' with
    | label _ => rfl
    | entry hlen _ => exact absurd hpre (hstop.not_entry hlen)
  | entry hlen _ ih =>
    cases h' with
    | label hstop => exact absurd hpre.symm (hstop.not_entry hlen)
    | entry hlen' h' =>
      obtain ⟨rfl, hfront⟩ := label_split hlen hlen' hpre
      exact ih h' hfront
  | elementTag hstop =>
    cases h' with
    | elementTag _ => rfl
    | nested hle _ => exact absurd hpre (hstop.not_nested hle)
    | element hk _ => exact absurd rfl hk
  | nested hle _ ih =>
    cases h' with
    | elementTag hstop => exact absurd hpre.symm (hstop.not_nested hle)
    | nested _ h' =>
      obtain ⟨rfl, hfront⟩ := List.cons.inj hpre
      exact ih h' hfront
    | element hk _ => exact absurd rfl hk
  | element hk _ ih =>
    cases h' with
    | elementTag _ | nested _ _ => exact absurd rfl hk
    | element _ h' => exact ih h' hpre
  | misplaced hbad =>
    cases h' with
    | misplaced _ => rfl
    | value htag hk _ => exact absurd hbad (not_misplaced (.inl ⟨htag, hk⟩))
    | array htag _ => exact absurd hbad (not_misplaced (.inr htag))
  | value htag hk _ ih =>
    cases h' with
    | misplaced hbad => exact absurd hbad (not_misplaced (.inl ⟨htag, hk⟩))
    | value htag' _ h' =>
      obtain rfl := Kind.tag_injective (htag.trans htag'.symm)
      exact ih h' hpre
    | array htag' _ => exact absurd (htag.trans htag'.symm) (Kind.tag_ne_arrayTag _ _)
  | array htag _ ih =>
    cases h' with
    | misplaced hbad => exact absurd hbad (not_misplaced (.inr htag))
    | value htag' _ _ => exact absurd (htag'.trans htag.symm) (Kind.tag_ne_arrayTag _ _)
    | array htag' h' =>
      obtain rfl := Kind.arrayTag_injective (htag.trans htag'.symm)
      exact ih h' hpre
  | number _ _ hs ho _ =>
    cases h' with
    | number _ _ _ _ _ => rfl
    | string _ => exact absurd rfl hs
    | object _ => exact absurd rfl ho
  | string _ ih =>
    cases h' with
    | number _ _ hs _ _ => exact absurd rfl hs
    | string h' => exact ih h' hpre
  | object _ ih =>
    cases h' with
    | number _ _ _ ho _ => exact absurd rfl ho
    | object h' => exact ih h' hpre

/-- The bytes that were taken and the error tell which objects and arrays are open. -/
theorem Stopped.unique {piece : Piece} {pre : Bytes} {e : StorageError}
    {opened opened' : List Container} (h : Stopped piece pre e opened)
    (h' : Stopped piece pre e opened') : opened = opened' :=
  h.unique_of_eq h' rfl

end LevinNet.Storage
