import ShaderPipeline.Proofs.Effect.Entries

/-!
# Rows and structures as they stand in a container

Numbers are kept in rows of four words, of which only the first are stored. A structure describes
its members one behind the other, and the rows of all its elements follow.
-/

namespace ShaderPipeline

open List TypeClass

/-- A member is a scalar or a vector of numbers, or an array of such. -/
structure Member.Plain (m : Member) : Prop where
  cls : m.info.cls = .scalar ∨ m.info.cls = .vector
  elem : m.info.elem.isNumeric = true
  columns : m.info.columns ≤ 4
  members : m.info.members = []

def Member.words (m : Member) : Nat := 4 * m.info.rows * max m.info.elements 1 % 2 ^ 64

namespace Effect

variable {base : Bytes} {offset n : Nat} {what : String} {rows : List Nat} {columns : Nat}

/-! ### Rows -/

theorem length_rowAt : (rowAt base offset columns).length = 4 := by
  rw [rowAt, length_map, length_range]

theorem rowsFrom_eq_append {done : List Word} :
    rowsFrom base offset rows done = done.reverse ++ rowsFrom base offset rows [] := by
  induction rows generalizing offset done with
  | nil => simp [rowsFrom]
  | cons columns rest ih =>
    rw [rowsFrom, ih, rowsFrom, @ih _ (_ ++ [])]
    simp

theorem rowsFrom_cons {rest : List Nat} :
    rowsFrom base offset (columns :: rest) [] =
      rowAt base offset columns ++ rowsFrom base (offset + 4 * columns) rest [] := by
  rw [rowsFrom, rowsFrom_eq_append]
  simp

theorem length_rowsFrom : (rowsFrom base offset rows []).length = 4 * rows.length := by
  induction rows generalizing offset with
  | nil => rfl
  | cons columns rest ih =>
    rw [rowsFrom_cons, length_append, length_rowAt, ih, length_cons]
    omega

/-- In rows of four words, all words behind the first `columns` of a row are zero. -/
def Padded (columns : Nat) (words : List Word) : Prop :=
  ∀ i w, columns ≤ i % 4 → words[i]? = some w → w = 0

theorem padded_rowsFrom : Padded columns (rowsFrom base offset (replicate n columns) []) := by
  induction n generalizing offset with
  | zero => nofun
  | succ n ih =>
    intro i w hi hw
    rw [replicate_succ, rowsFrom_cons] at hw
    by_cases hfirst : i < 4
    · rw [getElem?_append_left (by rwa [length_rowAt]), rowAt, getElem?_map,
        getElem?_range hfirst, Option.map_some, if_neg (by omega)] at hw
      exact (Option.some.inj hw).symm
    · rw [getElem?_append_right (by rw [length_rowAt]; omega), length_rowAt] at hw
      exact ih (i - 4) w (by omega) hw

theorem readRows_eq_ok {words : List Word} :
    readRows base offset rows what = .ok words ↔
      (rows ≠ [] → offset + 4 * rows.sum ≤ base.size) ∧ words = rowsFrom base offset rows [] := by
  rw [readRows]
  split
  case isTrue h => exact ⟨nofun, fun h' => absurd (h'.1 h.1) (Nat.not_le.mpr h.2)⟩
  case isFalse h =>
    rw [not_and, Nat.not_lt] at h
    exact ⟨fun h' => ⟨h, (Except.ok.inj h').symm⟩, fun h' => h'.2 ▸ rfl⟩

theorem valueWords_eq_ok {rows elements : Nat} :
    valueWords rows elements = .ok n ↔
      n = 4 * rows * max elements 1 % 2 ^ 64 ∧ n ≤ maxValueWords := by
  rw [valueWords]
  split
  case isTrue h => exact ⟨nofun, fun h' => absurd h'.2 (h'.1 ▸ Nat.not_le.mpr h)⟩
  case isFalse h =>
    refine ⟨fun h' => ?_, fun h' => h'.1 ▸ rfl⟩
    cases h'
    exact ⟨rfl, Nat.not_lt.mp h⟩

/-! ### Members -/

/-- The description of a member. -/
structure MemberAt (base : Bytes) (offset : Nat) (m : Member) : Prop where
  elem : ∃ n, number? base offset = some n ∧ m.info.elem = .ofCode n
  cls : ∃ n, number? base (offset + 4) = some n ∧ TypeClass.ofCode? n = some m.info.cls
  name : ∃ text, TextRefAt base (offset + 8) text ∧ m.name = text.getD ""
  elements : number? base (offset + 16) = some m.info.elements
  columns : number? base (offset + 20) = some m.info.columns
  rows : number? base (offset + 24) = some m.info.rows
  plain : m.Plain
  small : m.words ≤ maxValueWords

def structWords (ms : List Member) : Nat := (ms.map Member.words).sum

/-- Only scalars and vectors of numbers are taken as members. -/
theorem memberClass_eq_ok {β : Type} {code : Nat} {numeric : Bool} {x : EffectError}
    {f : TypeClass → Except EffectError β} {b : β} :
    (match ofCode? code, numeric with
      | some .scalar, true => pure scalar >>= f
      | some .vector, true => pure vector >>= f
      | _, _ => throw x >>= f) = .ok b ↔
    ∃ cls, ofCode? code = some cls ∧ (cls = .scalar ∨ cls = .vector) ∧
      numeric = true ∧ f cls = .ok b := by
  split
  case h_1 hcls =>
    rw [hcls]
    exact ⟨fun h => ⟨_, rfl, .inl rfl, rfl, h⟩, fun ⟨_, hc, _, _, h⟩ => Option.some.inj hc ▸ h⟩
  case h_2 hcls =>
    rw [hcls]
    exact ⟨fun h => ⟨_, rfl, .inr rfl, rfl, h⟩, fun ⟨_, hc, _, _, h⟩ => Option.some.inj hc ▸ h⟩
  case h_3 hscalar hvector =>
    refine ⟨nofun, ?_⟩
    rintro ⟨cls, hcls, rfl | rfl, hnumeric, -⟩
    · exact (hscalar hcls hnumeric).elim
    · exact (hvector hcls hnumeric).elim

theorem readMembers_eq_ok {count counted : Nat} {done ms' : List Member} {size dataAt : Nat} :
    readMembers base count offset counted done = .ok (ms', size, dataAt) ↔
      ∃ ms, ms.length = count ∧ ListedAt (MemberAt base) (fun _ => 28) offset ms ∧
        ms' = done.reverse ++ ms ∧ size = counted + structWords ms ∧
        dataAt = offset + 28 * ms.length := by
  induction count generalizing offset counted done with
  | zero =>
    rw [readMembers]
    constructor
    · intro h
      cases h
      exact ⟨[], rfl, trivial, (append_nil _).symm, rfl, rfl⟩
    · rintro ⟨ms, hlength, -, rfl, rfl, rfl⟩
      obtain rfl := eq_nil_of_length_eq_zero hlength
      rw [append_nil]
      rfl
  | succ count ih =>
    simp only [readMembers, bind_eq_ok, numberAt_eq_ok]
    constructor
    · rintro ⟨code, hcode, clsCode, hclsCode, nameAt, hnameAt, elements, helements, columns, hcolumns,
        rows, hrows, h⟩
      obtain ⟨cls, hcls, hkind, helem, h⟩ := memberClass_eq_ok.mp h
      simp only [check_eq_ok, bind_eq_ok, valueWords_eq_ok, Nat.not_lt, ih] at h
      obtain ⟨hnarrow, words, ⟨rfl, hsmall⟩, text, htext, ms, hlength, hlisted, hms', hsize,
        hdataAt⟩ := h
      refine ⟨⟨text.getD "", ⟨cls, .ofCode code, rows, columns, elements, []⟩⟩ :: ms,
        congrArg Nat.succ hlength, ⟨⟨⟨code, hcode, rfl⟩, ⟨clsCode, hclsCode, hcls⟩,
          ⟨text, ⟨nameAt, hnameAt, htext⟩, rfl⟩, helements, hcolumns, hrows,
          ⟨hkind, helem, hnarrow, rfl⟩, hsmall⟩, hlisted⟩, ?_, ?_, ?_⟩
      · rw [hms', reverse_cons, append_assoc, singleton_append]
      · rw [hsize, Nat.add_assoc]
        rfl
      · rw [hdataAt, length_cons]
        omega
    · rintro ⟨ms, hlength, hlisted, rfl, rfl, rfl⟩
      obtain _ | ⟨⟨name, info⟩, ms⟩ := ms
      · exact nomatch hlength
      obtain ⟨cls, elem, rows, columns, elements, members⟩ := info
      obtain ⟨⟨⟨code, hcode, rfl⟩, ⟨clsCode, hclsCode, hcls⟩, ⟨text, ⟨nameAt, hnameAt, htext⟩, rfl⟩,
        helements, hcolumns, hrows, ⟨hkind, hnumeric, hnarrow, rfl⟩, hsmall⟩, hrest⟩ := hlisted
      refine ⟨_, hcode, _, hclsCode, _, hnameAt, _, helements, _, hcolumns, _, hrows, ?_⟩
      refine memberClass_eq_ok.mpr ⟨cls, hcls, hkind, hnumeric, ?_⟩
      simp only [check_eq_ok, bind_eq_ok, valueWords_eq_ok, Nat.not_lt, ih]
      refine ⟨hnarrow, _, ⟨rfl, hsmall⟩, _, htext, ms, Nat.succ.inj hlength, hrest, ?_, ?_, ?_⟩
      · rw [reverse_cons, append_assoc, singleton_append]
      · rw [Nat.add_assoc]
        rfl
      · rw [length_cons]
        omega

/-- A structure is read exactly if its members are described and the rows of its elements follow. -/
theorem readStruct_eq_ok {info info' : TypeInfo} {words : List Word} :
    readStruct base info offset = .ok (info', words) ↔
      ∃ ms, number? base offset = some ms.length ∧
        ListedAt (MemberAt base) (fun _ => 28) (offset + 4) ms ∧
        structWords ms * max info.elements 1 % 2 ^ 64 ≤ maxValueWords ∧
        readRows base (offset + 4 + 28 * ms.length) (structRows (max info.elements 1) ms)
          "struct data" = .ok words ∧
        info' = { info with rows := 1, columns := wrap32 (structWords ms), members := ms } := by
  simp only [readStruct, bind_eq_ok, numberAt_eq_ok]
  constructor
  · rintro ⟨count, hcount, ⟨members, size, dataAt⟩, hmembers, h⟩
    obtain ⟨ms, rfl, hlisted, hms, rfl, rfl⟩ := readMembers_eq_ok.mp hmembers
    obtain rfl : members = ms := hms
    obtain ⟨hfits, h⟩ := check_eq_ok.mp h
    obtain ⟨words, hwords, h⟩ := bind_eq_ok.mp h
    cases h
    rw [Nat.zero_add] at hfits
    rw [Nat.zero_add]
    exact ⟨members, hcount, hlisted, Nat.not_lt.mp hfits, hwords, rfl⟩
  · rintro ⟨ms, hcount, hlisted, hfits, hwords, rfl⟩
    refine ⟨_, hcount, _, readMembers_eq_ok.mpr ⟨ms, rfl, hlisted, rfl, rfl, rfl⟩, ?_⟩
    rw [Nat.zero_add]
    exact check_eq_ok.mpr ⟨Nat.not_lt.mpr hfits, bind_eq_ok.mpr ⟨words, hwords, rfl⟩⟩

end Effect

end ShaderPipeline
