import ShaderPipeline.Proofs.Effect.Trailing

/-!
# Bytes before a container

A compiler may put a preamble in front of a container: a magic word of its own, its size and bytes
that mean nothing. Every offset in the container counts from the base, which moves with it, so an
effect is read, or refused, as if the preamble were not there.
-/

namespace ShaderPipeline.Effect

/-- A preamble with its filling. The size counts the two words in front, too. -/
def preambleOf (filling : Bytes) : Bytes :=
  (numberBytes [preambleMagic, 8 + filling.size]).toArray ++ filling

variable {filling bytes : Bytes}

@[simp] theorem size_preambleOf : (preambleOf filling).size = 8 + filling.size := by
  simp [preambleOf, numberBytes]

theorem numberAt_preambleOf_append (i : Nat) (what : String) :
    numberAt (preambleOf filling ++ bytes) (8 + filling.size + i) what = numberAt bytes i what := by
  have hbyte : ∀ k, (preambleOf filling ++ bytes)[8 + filling.size + k]? = bytes[k]? := by
    intro k
    rw [Array.getElem?_append_right (by simp), size_preambleOf, Nat.add_sub_cancel_left]
  simp only [numberAt, wordAt, wordAt?, Nat.add_assoc (8 + filling.size), hbyte]

theorem extract_preambleOf_append :
    (preambleOf filling ++ bytes).extract (8 + filling.size + 8)
      (preambleOf filling ++ bytes).size = bytes.extract 8 bytes.size := by
  rw [Array.extract_append, size_preambleOf, Array.extract_eq_empty_of_le (by simp)]
  simp

theorem containerStart_preambleOf_append (hfilling : 8 + filling.size < 2 ^ 32) :
    containerStart (preambleOf filling ++ bytes) = .ok (8 + filling.size) := by
  have hplaced : PlacedAt (preambleOf filling ++ bytes) 0
      (numberBytes [preambleMagic, 8 + filling.size]) :=
    ⟨filling.toList ++ bytes.toList, by simp [preambleOf]⟩
  rw [containerStart]
  refine check_eq_ok.mpr ⟨by simp; omega, bind_eq_ok.mpr ⟨preambleMagic, ?_, ?_⟩⟩
  · exact numberAt_eq_ok.mpr (number?_of_placedAt hplaced (i := 0) rfl (by decide))
  rw [if_neg (not_not.mpr rfl)]
  refine bind_eq_ok.mpr ⟨8 + filling.size, ?_, ?_⟩
  · exact numberAt_eq_ok.mpr (number?_of_placedAt hplaced (i := 1) rfl hfilling)
  · exact check_eq_ok.mpr ⟨by omega, check_eq_ok.mpr ⟨by simp, rfl⟩⟩

theorem containerStart_eq_zero (hsize : 8 ≤ bytes.size)
    (hfirst : number? bytes 0 ≠ some preambleMagic) : containerStart bytes = .ok 0 := by
  obtain ⟨w, hw⟩ := exists_wordAt? (show 0 + 4 ≤ bytes.size by omega)
  have hnumber : number? bytes 0 = some w.toNat := by rw [number?, hw, Option.map_some]
  rw [containerStart]
  refine check_eq_ok.mpr ⟨by omega, bind_eq_ok.mpr ⟨w.toNat, numberAt_eq_ok.mpr hnumber, ?_⟩⟩
  exact if_pos fun hmagic => hfirst (by rw [hnumber, hmagic])

/-- Reading a container behind a preamble is reading the container, whatever comes of it, with
every cache. -/
theorem ofBytes_preambleOf_append (filling bytes : Bytes) (hfilling : 8 + filling.size < 2 ^ 32)
    (hsize : 8 ≤ bytes.size) (hfirst : number? bytes 0 ≠ some preambleMagic) (profile : Profile)
    (options : Options) :
    ofBytes (preambleOf filling ++ bytes) profile options = ofBytes bytes profile options ∧
      ∀ cache, ofBytesCached (preambleOf filling ++ bytes) profile options cache =
        ofBytesCached bytes profile options cache := by
  have hcached : ∀ cache, ofBytesCached (preambleOf filling ++ bytes) profile options cache =
      ofBytesCached bytes profile options cache := by
    intro cache
    have hmagicAt (what : String) : numberAt (preambleOf filling ++ bytes) (8 + filling.size) what =
        numberAt bytes 0 what := numberAt_preambleOf_append 0 what
    simp only [ofBytesCached, containerStart_preambleOf_append hfilling,
      containerStart_eq_zero hsize hfirst, bind, Except.bind, hmagicAt, numberAt_preambleOf_append,
      extract_preambleOf_append, Nat.zero_add]
  exact ⟨by rw [ofBytes, ofBytes, hcached], hcached⟩

/-- The shortest container, which has nothing in it. -/
def emptyContainer : Bytes := (numberBytes [magic, 0, 0, 0, 0, 0, 0, 0]).toArray

/-- The shortest container is read behind a preamble with an odd number of bytes. -/
theorem ofBytes_preambleOf_append_empty :
    (ofBytes (preambleOf #[1, 2, 3] ++ emptyContainer) .glsl ⟨"main", [], []⟩).toOption =
      some ⟨.glsl, [], [], [], #[], none, none⟩ := by
  rw [(ofBytes_preambleOf_append #[1, 2, 3] emptyContainer (by decide) (by decide) (by decide) .glsl
    ⟨"main", [], []⟩).1]
  decide +kernel

end ShaderPipeline.Effect
