import Mathlib.Data.List.Forall2
import ShaderPipeline.Proofs.Bytes.Placed
import ShaderPipeline.Proofs.Effect.Calls

/-!
# The parts of a container

Numbers and texts are read back from where they are placed, and types are given to objects.
-/

namespace ShaderPipeline.Effect

open List

/-! ### Reading -/

def number? (base : Bytes) (offset : Nat) : Option Nat := (wordAt? base offset).map UInt32.toNat

variable {base : Bytes} {offset n : Nat} (types : Array ElementType) {what : String}

theorem wordAt_eq_ok {w : Word} :
    Effect.wordAt base offset what = .ok w ↔ wordAt? base offset = some w := by
  unfold Effect.wordAt
  cases wordAt? base offset <;> simp

theorem numberAt_eq_ok : numberAt base offset what = .ok n ↔ number? base offset = some n := by
  unfold numberAt number? Effect.wordAt
  cases wordAt? base offset with
  | none => exact ⟨nofun, nofun⟩
  | some w =>
    exact ⟨fun h => congrArg some (Except.ok.inj h), fun h => congrArg _ (Option.some.inj h)⟩

theorem bytesAt_eq_ok {len : Nat} {bytes : Bytes} :
    bytesAt base offset len what = .ok bytes ↔ slice? base offset len = some bytes := by
  unfold bytesAt
  cases slice? base offset len <;> simp

/-! ### Numbers and texts -/

@[simp] theorem length_numberBytes (ns : List Nat) : (numberBytes ns).length = 4 * ns.length := by
  rw [numberBytes, length_bytesOfWords, length_map]

theorem numberBytes_append (ns ks : List Nat) :
    numberBytes (ns ++ ks) = numberBytes ns ++ numberBytes ks := by
  rw [numberBytes, map_append, bytesOfWords, flatMap_append]
  rfl

theorem numberBytes_flatMap {α : Type} (f : α → List Nat) (l : List α) :
    l.flatMap (fun a => numberBytes (f a)) = numberBytes (l.flatMap f) := by
  induction l with
  | nil => rfl
  | cons a l ih => rw [flatMap_cons, flatMap_cons, numberBytes_append, ih]

theorem numberBytes_toNat (ws : List Word) :
    numberBytes (ws.map UInt32.toNat) = bytesOfWords ws := by
  have hround : ws.map (UInt32.ofNat ∘ UInt32.toNat) = ws :=
    (map_congr_left fun w _ => UInt32.ofNat_toNat).trans (map_id' ws)
  rw [numberBytes, map_map, hround]

variable {ns ks : List Nat}

theorem placedAt_numbers_append :
    PlacedAt base offset (numberBytes (ns ++ ks)) ↔
      PlacedAt base offset (numberBytes ns) ∧
        PlacedAt base (offset + 4 * ns.length) (numberBytes ks) := by
  rw [numberBytes_append, placedAt_append, length_numberBytes]

theorem bytesOfWords_append (ws vs : List Word) :
    bytesOfWords (ws ++ vs) = bytesOfWords ws ++ bytesOfWords vs := by
  rw [bytesOfWords, flatMap_append]
  rfl

theorem wordAt?_of_placedAt {ws : List Word} (h : PlacedAt base offset (bytesOfWords ws)) {i : Nat}
    {w : Word} (hi : ws[i]? = some w) : wordAt? base (offset + 4 * i) = some w := by
  have hlength : (ws.take i).length = i := by
    have := (List.getElem?_eq_some_iff.mp hi).1
    rw [length_take]
    omega
  have hsplit : ws = ws.take i ++ ([w] ++ ws.drop (i + 1)) := by
    rw [← (List.getElem?_eq_some_iff.mp hi).2, singleton_append, getElem_cons_drop,
      take_append_drop]
  rw [hsplit, bytesOfWords_append, bytesOfWords_append, placedAt_append, placedAt_append,
    length_bytesOfWords, hlength] at h
  have hw : PlacedAt base (offset + 4 * i) (bytesOfWord w ++ []) := h.2.1
  rw [append_nil] at hw
  exact hw.wordAt?

theorem number?_of_placedAt (h : PlacedAt base offset (numberBytes ns)) {i n : Nat}
    (hi : ns[i]? = some n) (hn : n < 2 ^ 32) : number? base (offset + 4 * i) = some n := by
  have hword : wordAt? base (offset + 4 * i) = some (UInt32.ofNat n) :=
    wordAt?_of_placedAt h (by rw [getElem?_map, hi]; rfl)
  rw [number?, hword, Option.map_some, UInt32.toNat_ofNat', Nat.mod_eq_of_lt hn]

/-- A text without zero bytes. -/
theorem stringAt_of_placedAt {s : String} (hs : 0 ∉ utf8Bytes s) (hbase : base.size < 2 ^ 32)
    (h : PlacedAt base offset (numberBytes [(utf8Bytes s).length + 1] ++ (utf8Bytes s ++ [0]))) :
    stringAt base offset = .ok (some s) := by
  obtain ⟨hnumber, hbytes⟩ := placedAt_append.mp h
  have hsize := hbytes.le_size (by simp)
  have hlength : (utf8Bytes s ++ [0]).length = (utf8Bytes s).length + 1 := by simp
  rw [length_numberBytes, length_singleton, Nat.mul_one] at hbytes hsize
  have hlen : numberAt base offset "string length" = .ok ((utf8Bytes s).length + 1) :=
    numberAt_eq_ok.mpr (number?_of_placedAt hnumber (i := 0) rfl (by omega))
  have hslice : bytesAt base (offset + 4) ((utf8Bytes s).length + 1) "string" =
      .ok (utf8Bytes s ++ [0]).toArray := by
    rw [bytesAt, ← hlength, hbytes.slice? hsize]
  rw [stringAt, hlen]
  simp only [bind, Except.bind, if_neg (Nat.succ_ne_zero _), hslice, pure, Except.pure,
    lossyTextUntilZero_utf8Bytes hs]

theorem stringAt_zero (h : PlacedAt base offset (numberBytes [0])) :
    stringAt base offset = .ok none := by
  have hlen : numberAt base offset "string length" = .ok 0 :=
    numberAt_eq_ok.mpr (number?_of_placedAt h (i := 0) rfl (by decide))
  rw [stringAt, hlen]
  rfl

/-! ### Types of objects -/

def record (types : Array ElementType) (typed : List (Nat × ElementType)) : Array ElementType :=
  typed.foldl (fun types x => types.setIfInBounds x.1 x.2) types

@[simp] theorem size_record (typed : List (Nat × ElementType)) :
    (record types typed).size = types.size := by
  induction typed generalizing types with
  | nil => rfl
  | cons x typed ih => exact (ih _).trans Array.size_setIfInBounds

theorem record_append (xs ys : List (Nat × ElementType)) :
    record types (xs ++ ys) = record (record types xs) ys := by
  rw [record, foldl_append]
  rfl

end ShaderPipeline.Effect
