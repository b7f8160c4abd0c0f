import Mathlib.Data.List.Basic
import ShaderPipeline.Proofs.Bytes.Placed
import ShaderPipeline.Proofs.Text.Utf8
import ShaderPipeline.Symbol.TableWriter

/-!
# Constant tables are read back

A written table gives back its symbols. Types are trees whose members are found through offsets, so
the proof goes along the tree: the bytes of a type are placed where its offset says, and so are the
bytes of every member, whatever else the table holds.
-/

namespace ShaderPipeline

open List

/-! ### Codes -/

theorem RegisterSet.ofCode?_code (r : RegisterSet) : ofCode? r.code = some r := by
  cases r <;> rfl

theorem RegisterSet.code_lt (r : RegisterSet) : r.code < 65536 := by
  cases r <;> decide

theorem TypeClass.ofCode?_code (c : TypeClass) : ofCode? c.code = some c := by
  cases c <;> rfl

theorem TypeClass.code_lt (c : TypeClass) : c.code < 65536 := by
  cases c <;> decide

theorem ElementType.ofCode_code (e : ElementType) : ofCode e.code = e := by
  cases e <;> rfl

theorem ElementType.code_lt (e : ElementType) : e.code < 65536 := by
  cases e <;> decide

/-! ### Trees of types -/

mutual

def TypeInfo.nodes : TypeInfo → List TypeInfo
  | ⟨cls, elem, rows, columns, elements, members⟩ =>
    ⟨cls, elem, rows, columns, elements, members⟩ :: Member.nodes members

def Member.nodes : List Member → List TypeInfo
  | [] => []
  | ⟨_, info⟩ :: rest => info.nodes ++ Member.nodes rest

end

mutual

def TypeInfo.depth : TypeInfo → Nat
  | ⟨_, _, _, _, _, members⟩ => Member.depth members

def Member.depth : List Member → Nat
  | [] => 0
  | ⟨_, info⟩ :: rest => max (info.depth + 1) (Member.depth rest)

end

/-- The numbers of a type fit their fields, and the names of its members end at their zero byte. -/
@[mk_iff]
structure TypeInfo.Narrow (t : TypeInfo) : Prop where
  rows : t.rows < 65536
  columns : t.columns < 65536
  elements : t.elements < 65536
  members : t.members.length < 65536
  names : ∀ m ∈ t.members, 0 ∉ utf8Bytes m.name

instance (t : TypeInfo) : Decidable t.Narrow :=
  decidable_of_iff _ (TypeInfo.narrow_iff t).symm

/-- A symbol that a table can hold. -/
@[mk_iff]
structure Symbol.Storable (s : Symbol) : Prop where
  name : 0 ∉ utf8Bytes s.name
  index : s.index < 65536
  count : s.count < 65536
  narrow : ∀ t ∈ s.info.nodes, t.Narrow
  depth : s.info.depth ≤ ConstantTable.maxDepth

instance (s : Symbol) : Decidable s.Storable :=
  decidable_of_iff _ (Symbol.storable_iff s).symm

namespace ConstantTable

variable {b : Bytes} {offset : Nat} (base : Nat) (ss : List Symbol) (t : TypeInfo)

/-! ### Fields -/

@[simp] theorem length_wordBytes (n : Nat) : (wordBytes n).length = 4 := rfl

theorem length_nameBytes_pos (s : String) : 0 < (nameBytes s).length := by
  simp [nameBytes]

theorem word_of_placedAt {n : Nat} (hn : n < 2 ^ 32) (h : PlacedAt b offset (wordBytes n))
    (what : String) : word b offset what = .ok n := by
  have hword : (UInt32.ofNat n).toNat = n := by
    rw [UInt32.toNat_ofNat']
    exact Nat.mod_eq_of_lt hn
  simp [word, h.wordAt?, hword]

theorem half_of_placedAt {n : Nat} (hn : n < 65536) (h : PlacedAt b offset (bytesOfHalf n))
    (what : String) : half b offset what = .ok n := by
  simp [half, h.halfAt? hn]

theorem name_of_placedAt {s : String} (hs : 0 ∉ utf8Bytes s) (h : PlacedAt b offset (nameBytes s))
    (what : String) : name b offset what = .ok s := by
  have hsize := h.le_size (length_nameBytes_pos s)
  have hfuel : (utf8Bytes s).length < b.size := by
    simp only [nameBytes, length_append, length_singleton] at hsize
    exact Nat.lt_of_lt_of_le (Nat.lt_add_one _) (Nat.le_trans (Nat.le_add_left _ _) hsize)
  have hread : zeroTerminated? b b.size offset = some (utf8Bytes s) :=
    PlacedAt.zeroTerminated? hs h hfuel
  simp [name, hread, lossyText_utf8Bytes]

/-! ### Types -/

def typeFront : List UInt8 :=
  bytesOfHalf t.cls.code ++ bytesOfHalf t.elem.code ++ bytesOfHalf t.rows ++
    bytesOfHalf t.columns ++ bytesOfHalf t.elements ++ bytesOfHalf t.members.length

/-- The offset written in an entry for the first member. -/
def firstMember : Nat :=
  if t.members.isEmpty then 0 else base + typeSize

theorem typeBytes_eq :
    typeBytes base t = typeFront t ++ wordBytes (firstMember base t) ++
      ((membersBytes (base + typeSize + memberSize * t.members.length) t.members).1 ++
        (membersBytes (base + typeSize + memberSize * t.members.length) t.members).2) := by
  obtain ⟨cls, elem, rows, columns, elements, members⟩ := t
  cases members with
  | nil => simp [typeBytes, typeFront, firstMember, membersBytes]
  | cons m ms => simp [typeBytes, typeFront, firstMember]

/-- The offset behind the type and the name of the first member. -/
def nextMember (m : Member) : Nat :=
  base + (typeBytes base m.info).length + (nameBytes m.name).length

theorem membersBytes_cons (m : Member) (ms : List Member) :
    membersBytes base (m :: ms) =
      (wordBytes (base + (typeBytes base m.info).length) ++
        (wordBytes base ++ (membersBytes (nextMember base m) ms).1),
        typeBytes base m.info ++
          (nameBytes m.name ++ (membersBytes (nextMember base m) ms).2)) := by
  obtain ⟨name, info⟩ := m
  simp only [membersBytes, append_assoc]
  rfl

theorem length_membersBytes (ms : List Member) :
    (membersBytes base ms).1.length = memberSize * ms.length := by
  induction ms generalizing base with
  | nil => rfl
  | cons m ms ih =>
    simp only [membersBytes_cons, length_append, length_wordBytes, ih, length_cons, memberSize]
    omega

theorem length_typeBytes_pos : 16 ≤ (typeBytes base t).length := by
  rw [typeBytes_eq]
  simp [typeFront]
  omega

theorem readType_of_fields {t : TypeInfo} (ht : t.Narrow) {levels first : Nat}
    (hfirst : first < 2 ^ 32) (hplaced : PlacedAt b offset (typeFront t ++ wordBytes first))
    (hsize : memberSize * t.members.length ≤ b.size)
    (hmembers : readMembers b (readType b levels) first t.members.length = .ok t.members) :
    readType b (levels + 1) offset = .ok t := by
  have hroom : ¬b.size < offset + typeSize := by
    have := hplaced.le_size (by simp [typeFront])
    simpa [typeFront, typeSize] using this
  simp only [typeFront, placedAt_append, length_bytesOfHalf, length_append] at hplaced
  obtain ⟨⟨⟨⟨⟨⟨hcls, helem⟩, hrows⟩, hcolumns⟩, helements⟩, hcount⟩, hword⟩ := hplaced
  have hcount' : ¬b.size < t.members.length * memberSize := by
    rw [Nat.mul_comm]
    exact Nat.not_lt.mpr hsize
  rw [readType, if_neg hroom]
  simp only [half_of_placedAt t.cls.code_lt hcls, half_of_placedAt t.elem.code_lt helem,
    half_of_placedAt ht.rows hrows, half_of_placedAt ht.columns hcolumns,
    half_of_placedAt ht.elements helements, half_of_placedAt ht.members hcount,
    word_of_placedAt hfirst hword, hmembers, if_neg hcount', bind, Except.bind, pure, Except.pure,
    TypeClass.ofCode?_code, ElementType.ofCode_code]
  cases t
  rfl

theorem lt_of_placedAt {xs : List UInt8} (hb : b.size < 2 ^ 32) (h : PlacedAt b offset xs)
    (hxs : 0 < xs.length) : offset < 2 ^ 32 := by
  have := h.le_size hxs
  omega

mutual

theorem readType_typeBytes (hb : b.size < 2 ^ 32) (t : TypeInfo) {levels base : Nat}
    (hnarrow : ∀ u ∈ t.nodes, u.Narrow) (hdepth : t.depth ≤ levels)
    (hplaced : PlacedAt b base (typeBytes base t)) : readType b (levels + 1) base = .ok t := by
  match t with
  | ⟨cls, elem, rows, columns, elements, members⟩ =>
    rw [TypeInfo.nodes, List.forall_mem_cons] at hnarrow
    rw [typeBytes_eq] at hplaced
    obtain ⟨hentry, hbody⟩ := placedAt_append.mp hplaced
    obtain ⟨hentries, hbodies⟩ := placedAt_append.mp hbody
    rw [length_membersBytes] at hbodies
    have hread := readMembers_membersBytes hb members hnarrow.2 hnarrow.1.names hdepth hentries
      hbodies
    cases members with
    | nil => exact readType_of_fields hnarrow.1 (Nat.two_pow_pos 32) hentry (Nat.zero_le _) rfl
    | cons m ms =>
      have hentriesSize := hentries.le_size (by simp [length_membersBytes, memberSize])
      rw [length_membersBytes] at hentriesSize
      refine readType_of_fields hnarrow.1 ?_ hentry
        (Nat.le_trans (Nat.le_add_left _ _) hentriesSize) hread
      exact lt_of_placedAt hb hentries (by simp [length_membersBytes, memberSize])

theorem readMembers_membersBytes (hb : b.size < 2 ^ 32) (ms : List Member)
    {levels offset base : Nat} (hnarrow : ∀ u ∈ Member.nodes ms, u.Narrow)
    (hnames : ∀ m ∈ ms, 0 ∉ utf8Bytes m.name) (hdepth : Member.depth ms ≤ levels)
    (hentries : PlacedAt b offset (membersBytes base ms).1)
    (hbodies : PlacedAt b base (membersBytes base ms).2) :
    readMembers b (readType b levels) offset ms.length = .ok ms := by
  match ms with
  | [] => rfl
  | ⟨name, info⟩ :: rest =>
    rw [membersBytes_cons] at hentries hbodies
    rw [Member.nodes, List.forall_mem_append] at hnarrow
    rw [List.forall_mem_cons] at hnames
    rw [Member.depth] at hdepth
    obtain ⟨hnameAt, hentries⟩ := placedAt_append.mp hentries
    obtain ⟨hinfoAt, hentries⟩ := placedAt_append.mp hentries
    rw [length_wordBytes] at hinfoAt hentries
    obtain ⟨hinfo, hbodies⟩ := placedAt_append.mp hbodies
    obtain ⟨hname, hbodies⟩ := placedAt_append.mp hbodies
    obtain ⟨levels, rfl⟩ : ∃ l, levels = l + 1 := ⟨levels - 1, by omega⟩
    have hinfoDepth : info.depth ≤ levels := by omega
    have hrestDepth : Member.depth rest ≤ levels + 1 := by omega
    have hread := readType_typeBytes hb info hnarrow.1 hinfoDepth hinfo
    have hrest := readMembers_membersBytes hb rest hnarrow.2 hnames.2 hrestDepth hentries hbodies
    have hbase : base < 2 ^ 32 :=
      lt_of_placedAt hb hinfo (Nat.lt_of_lt_of_le (by decide) (length_typeBytes_pos _ _))
    have hnameBase := lt_of_placedAt hb hname (length_nameBytes_pos name)
    rw [length_wordBytes, Nat.add_assoc] at hrest
    rw [List.length_cons, readMembers]
    simp only [word_of_placedAt hnameBase hnameAt, name_of_placedAt hnames.1 hname,
      word_of_placedAt hbase hinfoAt, hread, memberSize, hrest, bind, Except.bind, pure,
      Except.pure]

end

/-! ### Symbols -/

def entriesBytes (symbols : List Symbol) (nameOffsets typeOffsets : List Nat) : List UInt8 :=
  (symbols.zip (nameOffsets.zip typeOffsets)).flatMap fun (s, nameAt, typeAt) =>
    symbolBytes s nameAt typeAt

@[simp] theorem length_symbolBytes (s : Symbol) (nameAt typeAt : Nat) :
    (symbolBytes s nameAt typeAt).length = constantSize := rfl

theorem readSymbol_symbolBytes (hb : b.size < 2 ^ 32) {s : Symbol} (hs : s.Storable)
    {nameAt typeAt : Nat} (hentry : PlacedAt b offset (symbolBytes s nameAt typeAt))
    (hname : PlacedAt b nameAt (nameBytes s.name))
    (htype : PlacedAt b typeAt (typeBytes typeAt s.info)) : readSymbol b offset = .ok s := by
  have hnameAt := lt_of_placedAt hb hname (length_nameBytes_pos s.name)
  have htypeAt := lt_of_placedAt hb htype
    (Nat.lt_of_lt_of_le (by decide) (length_typeBytes_pos typeAt s.info))
  simp only [symbolBytes, placedAt_append, length_bytesOfHalf, length_wordBytes,
    length_append, length_cons, length_nil] at hentry
  obtain ⟨⟨⟨⟨⟨⟨hnameWord, hset⟩, hindex⟩, hcount⟩, -⟩, htypeWord⟩, -⟩ := hentry
  have hread := readType_typeBytes hb s.info hs.narrow hs.depth htype
  simp only [readSymbol, word_of_placedAt hnameAt hnameWord, name_of_placedAt hs.name hname,
    half_of_placedAt s.registerSet.code_lt hset, half_of_placedAt hs.index hindex,
    half_of_placedAt hs.count hcount, word_of_placedAt htypeAt htypeWord, hread,
    RegisterSet.ofCode?_code, bind, Except.bind, pure, Except.pure]

theorem readSymbols_symbolBytes (hb : b.size < 2 ^ 32) (ss : List Symbol)
    (hss : ∀ s ∈ ss, s.Storable) {offset namesAt typesAt : Nat}
    (hentries : PlacedAt b offset
      (entriesBytes ss (namesBytes namesAt ss).1 (typesBytes typesAt ss).1))
    (hnames : PlacedAt b namesAt (namesBytes namesAt ss).2)
    (htypes : PlacedAt b typesAt (typesBytes typesAt ss).2) :
    readSymbols b offset ss.length = .ok ss := by
  induction ss generalizing offset namesAt typesAt with
  | nil => rfl
  | cons s ss ih =>
    rw [forall_mem_cons] at hss
    simp only [entriesBytes, namesBytes, typesBytes, zip_cons_cons, flatMap_cons,
      placedAt_append, length_symbolBytes] at hentries hnames htypes
    have hfirst := readSymbol_symbolBytes hb hss.1 hentries.1 hnames.1 htypes.1
    have hrest := ih hss.2 hentries.2 hnames.2 htypes.2
    simp only [length_cons, readSymbols, hfirst, hrest, bind, Except.bind, pure, Except.pure]

theorem length_entriesBytes (namesAt typesAt : Nat) :
    (entriesBytes ss (namesBytes namesAt ss).1 (typesBytes typesAt ss).1).length =
      constantSize * ss.length := by
  induction ss generalizing namesAt typesAt with
  | nil => rfl
  | cons s ss ih =>
    have := ih (namesAt + (nameBytes s.name).length) (typesAt + (typeBytes typesAt s.info).length)
    simp only [entriesBytes, namesBytes, typesBytes, zip_cons_cons, flatMap_cons,
      length_append, length_symbolBytes, length_cons] at this ⊢
    rw [this, Nat.mul_succ, Nat.add_comm]

/-! ### Tables -/

/-- The header of a table of `count` symbols. -/
def headerBytes (count creatorAt targetAt : Nat) : List UInt8 :=
  wordBytes headerSize ++ wordBytes creatorAt ++ wordBytes 0xFFFE0300 ++ wordBytes count ++
    wordBytes headerSize ++ wordBytes 0 ++ wordBytes targetAt

def typesStart : Nat := headerSize + constantSize * ss.length

def creatorStart : Nat :=
  typesStart ss + (typesBytes (typesStart ss) ss).2.length

def targetStart : Nat := creatorStart ss + (nameBytes creatorName).length

def namesStart : Nat := targetStart ss + (nameBytes targetName).length

theorem toBytes_eq : toBytes ss =
    padded (headerBytes ss.length (creatorStart ss) (targetStart ss) ++
      (entriesBytes ss (namesBytes (namesStart ss) ss).1 (typesBytes (typesStart ss) ss).1 ++
        ((typesBytes (typesStart ss) ss).2 ++ (nameBytes creatorName ++
          (nameBytes targetName ++ (namesBytes (namesStart ss) ss).2))))) := by
  simp only [toBytes, ← append_assoc]
  rfl

/-- The parts of a table are where its offsets say. -/
structure Laid (b : Bytes) (ss : List Symbol) : Prop where
  header : PlacedAt b 0 (headerBytes ss.length (creatorStart ss) (targetStart ss))
  entries : PlacedAt b headerSize
    (entriesBytes ss (namesBytes (namesStart ss) ss).1 (typesBytes (typesStart ss) ss).1)
  types : PlacedAt b (typesStart ss) (typesBytes (typesStart ss) ss).2
  creator : PlacedAt b (creatorStart ss) (nameBytes creatorName)
  target : PlacedAt b (targetStart ss) (nameBytes targetName)
  names : PlacedAt b (namesStart ss) (namesBytes (namesStart ss) ss).2

theorem laid_toBytes : Laid (toBytes ss).toArray ss := by
  have hplaced : PlacedAt (toBytes ss).toArray 0 (toBytes ss) := prefix_refl _
  generalize (toBytes ss).toArray = b at hplaced
  rw [toBytes_eq, padded] at hplaced
  obtain ⟨hheader, hplaced⟩ := placedAt_append.mp (placedAt_append.mp hplaced).1
  obtain ⟨hentries, hplaced⟩ := placedAt_append.mp hplaced
  obtain ⟨htypes, hplaced⟩ := placedAt_append.mp hplaced
  obtain ⟨hcreator, hplaced⟩ := placedAt_append.mp hplaced
  obtain ⟨htarget, hnames⟩ := placedAt_append.mp hplaced
  have hlength : 0 + (headerBytes ss.length (creatorStart ss) (targetStart ss)).length =
      headerSize := rfl
  simp only [hlength, length_entriesBytes] at hentries htypes hcreator htarget hnames
  exact ⟨hheader, hentries, htypes, hcreator, htarget, hnames⟩

theorem ofBytes_toBytes (hcount : ss.length ≤ maxConstants) (hss : ∀ s ∈ ss, s.Storable)
    (hsize : (toBytes ss).length < 2 ^ 32) :
    ofBytes (toBytes ss).toArray = .ok ⟨creatorName, targetName, ss⟩ := by
  have hlaid := laid_toBytes ss
  have hb : (toBytes ss).toArray.size < 2 ^ 32 := hsize
  generalize (toBytes ss).toArray = b at hlaid hb
  have hcreatorAt := lt_of_placedAt hb hlaid.creator (length_nameBytes_pos _)
  have htargetAt := lt_of_placedAt hb hlaid.target (length_nameBytes_pos _)
  have hsymbols := readSymbols_symbolBytes hb ss hss hlaid.entries hlaid.names hlaid.types
  have hheader := hlaid.header
  simp only [headerBytes, placedAt_append, length_wordBytes, length_append, Nat.zero_add] at hheader
  obtain ⟨⟨⟨⟨⟨⟨hsizeWord, hcreatorWord⟩, -⟩, hcountWord⟩, hfirstWord⟩, -⟩, htargetWord⟩ := hheader
  have hroom : ¬(maxConstants < ss.length ∨ b.size < ss.length * constantSize) := by
    rintro (hmany | hshort)
    · exact Nat.not_lt.mpr hcount hmany
    · have hpos : 0 < constantSize * ss.length := by
        rw [Nat.mul_comm]
        exact Nat.zero_lt_of_lt hshort
      have := hlaid.entries.le_size (by rwa [length_entriesBytes])
      rw [length_entriesBytes, Nat.mul_comm] at this
      omega
  have hheaderLt : headerSize < 2 ^ 32 := by decide
  have hcountLt : ss.length < 2 ^ 32 := by
    rw [maxConstants] at hcount
    omega
  have hsizeRead : word b 0 "header" = .ok headerSize := word_of_placedAt hheaderLt hsizeWord _
  have hcreatorRead : word b 4 "header" = .ok (creatorStart ss) :=
    word_of_placedAt hcreatorAt hcreatorWord _
  have hcountRead : word b 12 "header" = .ok ss.length := word_of_placedAt hcountLt hcountWord _
  have hfirstRead : word b 16 "header" = .ok headerSize := word_of_placedAt hheaderLt hfirstWord _
  have htargetRead : word b 24 "header" = .ok (targetStart ss) :=
    word_of_placedAt htargetAt htargetWord _
  have hcreator := name_of_placedAt (by decide : 0 ∉ utf8Bytes creatorName) hlaid.creator "creator"
  have htarget := name_of_placedAt (by decide : 0 ∉ utf8Bytes targetName) hlaid.target "target"
  unfold ofBytes
  rw [hsizeRead, hcreatorRead, hcountRead, hfirstRead, htargetRead]
  simp only [hcreator, htarget, ne_eq, not_true, if_false, bind, Except.bind]
  rw [if_neg hroom, hsymbols]
  rfl

theorem bytesOfWords_wordsOfBytes_toBytes :
    bytesOfWords (wordsOfBytes (toBytes ss)) = toBytes ss := by
  apply bytesOfWords_wordsOfBytes
  rw [toBytes_eq, padded, length_append, length_replicate]
  omega

theorem length_toWords : (toWords ss).length * 4 = (toBytes ss).length + 4 := by
  rw [← bytesOfWords_wordsOfBytes_toBytes ss, length_bytesOfWords, toWords, length_cons]
  omega

theorem ofWords_toWords_eq_ofBytes : ofWords (toWords ss) = ofBytes (toBytes ss).toArray := by
  rw [toWords, ofWords, if_pos rfl, bytesOfWords_wordsOfBytes_toBytes]

/-- Every table of symbols that can be stored is read back from its words. -/
theorem ofWords_toWords (ss : List Symbol) (hcount : ss.length ≤ maxConstants)
    (hss : ∀ s ∈ ss, s.Storable) (hsize : (toBytes ss).length < 2 ^ 32) :
    ofWords (toWords ss) = .ok ⟨"d3dfx", "vs_3_0", ss⟩ := by
  rw [ofWords_toWords_eq_ofBytes]
  exact ofBytes_toBytes ss hcount hss hsize

def lightSymbols : List Symbol :=
  let float (cls : TypeClass) (rows columns : Nat) : TypeInfo := ⟨cls, .float, rows, columns, 1, []⟩
  let spot : TypeInfo :=
    ⟨.struct, .void, 1, 2, 1, [⟨"Inner", float .scalar 1 1⟩, ⟨"Outer", float .scalar 1 1⟩]⟩
  [⟨"WorldViewProj", .float4, 0, 4, float .matrixColumns 4 4⟩,
    ⟨"Lights", .float4, 4, 6,
      ⟨.struct, .void, 1, 6, 2, [⟨"Color", float .vector 1 4⟩, ⟨"Spot", spot⟩]⟩⟩]

theorem ofWords_toWords_lights :
    lightSymbols.map (·.info.depth) = [0, 2] ∧ (toWords lightSymbols).length = 65 ∧
    ofWords (toWords lightSymbols) = .ok ⟨"d3dfx", "vs_3_0", lightSymbols⟩ :=
  ⟨by decide, by decide +kernel,
    ofWords_toWords lightSymbols (by decide) (by decide +kernel) (by decide +kernel)⟩

end ConstantTable

end ShaderPipeline
