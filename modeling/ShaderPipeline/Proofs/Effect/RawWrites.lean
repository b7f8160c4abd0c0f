import ShaderPipeline.Proofs.Bytes.Placed
import ShaderPipeline.Proofs.Effect.CursorRuns

/-!
# Raw writes

A raw write replaces bytes of a parameter, from an offset on. It may begin and end inside of words,
and no other byte changes. A write that does not fit changes nothing. So writes of bytes that lie
apart can be exchanged, whether they fit or not.
-/

namespace ShaderPipeline

open List

/-! ### Bytes -/

/-- The bytes with `data` in place of those from `offset` on, if it fits. -/
def spliced (offset : Nat) (data bs : List UInt8) : List UInt8 :=
  if offset + data.length ≤ bs.length then bs.take offset ++ data ++ bs.drop (offset + data.length)
  else bs

section Spliced

variable {offset offset' : Nat} {data data' bs : List UInt8}

@[simp] theorem length_spliced : (spliced offset data bs).length = bs.length := by
  unfold spliced
  split_ifs
  · simp only [length_append, length_take, length_drop]
    omega
  · rfl

theorem getElem?_spliced (k : Nat) : (spliced offset data bs)[k]? =
    if offset + data.length ≤ bs.length ∧ offset ≤ k ∧ k < offset + data.length then
      data[k - offset]?
    else bs[k]? := by
  unfold spliced
  by_cases hfits : offset + data.length ≤ bs.length
  · have htake : (bs.take offset).length = offset := length_take_of_le (by omega)
    rw [if_pos hfits, append_assoc, getElem?_append, htake, getElem?_take, getElem?_append,
      getElem?_drop]
    split_ifs <;> first | rfl | omega | (congr 1; omega)
  · simp [hfits]

theorem spliced_comm (h : offset + data.length ≤ offset' ∨ offset' + data'.length ≤ offset) :
    spliced offset' data' (spliced offset data bs) =
      spliced offset data (spliced offset' data' bs) := by
  refine ext_getElem? fun k => ?_
  simp only [getElem?_spliced, length_spliced]
  split_ifs <;> first | rfl | omega

end Spliced

namespace Effect

/-! ### Values -/

namespace Value

variable {v v' : Value} {offset offset' : Nat} {data data' bs bs' : List UInt8}

theorem length_of_bytes (h : v.bytes = .ok bs) : bs.length = 4 * v.count := by
  rcases v with ⟨_, _, _, ws | ws | ss⟩ <;> cases h <;> exact length_bytesOfWords ws

theorem kind_ne_states_iff : v.data.kind ≠ .states ↔ ∃ bs, v.bytes = .ok bs := by
  rcases v with ⟨_, _, _, ws | ws | ss⟩
  · exact ⟨fun _ => ⟨_, rfl⟩, fun _ => nofun⟩
  · exact ⟨fun _ => ⟨_, rfl⟩, fun _ => nofun⟩
  · exact ⟨fun h => absurd rfl h, fun ⟨_, h⟩ => nomatch h⟩

/-- The value of the same kind, with the same name and type, that has other bytes. -/
def withBytes (v : Value) (bs : List UInt8) : Value := v.withWords (wordsOfBytes bs)

theorem bytes_withBytes (h : v.bytes = .ok bs) (hlength : bs'.length = bs.length) :
    (v.withBytes bs').bytes = .ok bs' := by
  have hwords : bytesOfWords (wordsOfBytes bs') = bs' :=
    bytesOfWords_wordsOfBytes (by rw [hlength, length_of_bytes h, Nat.mul_mod_right])
  rcases v with ⟨_, _, _, ws | ws | ss⟩
  · exact congrArg Except.ok hwords
  · exact congrArg Except.ok hwords
  · exact nomatch h

theorem withBytes_withBytes : (v.withBytes bs).withBytes bs' = v.withBytes bs' := by
  rcases v with ⟨_, _, _, ws | ws | ss⟩ <;> rfl

theorem withBytes_of_bytes (h : v.bytes = .ok bs) : v.withBytes bs = v := by
  rcases v with ⟨_, _, _, ws | ws | ss⟩ <;> cases h
  · rw [withBytes, wordsOfBytes_bytesOfWords, withWords]
  · rw [withBytes, wordsOfBytes_bytesOfWords, withWords]

/-- What a write of `data` from `offset` on makes of a value: another one of the same kind, with the
same name, type and number of words. -/
structure Written (offset : Nat) (data : List UInt8) (v v' : Value) : Prop where
  rest : { v' with data := v.data } = v
  kind : v'.data.kind = v.data.kind
  count : v'.count = v.count
  bytes : ∃ bs bs', v.bytes = .ok bs ∧ v'.bytes = .ok bs' ∧ ∀ k, bs'[k]? =
    if offset ≤ k ∧ k < offset + data.length then data[k - offset]? else bs[k]?

theorem writeBytes_of_bytes (h : v.bytes = .ok bs) : v.writeBytes offset data =
    if offset + data.length ≤ bs.length then .ok (v.withBytes (spliced offset data bs))
    else .error (.valueOverflow offset data.length bs.length) := by
  rw [writeBytes, h]
  by_cases hfits : offset + data.length ≤ bs.length
  · rw [if_pos hfits, spliced, if_pos hfits]
    exact if_neg (Nat.not_lt.mpr hfits)
  · rw [if_neg hfits]
    exact if_pos (Nat.not_le.mp hfits)

theorem writeBytes_isOk_iff : (∃ v', v.writeBytes offset data = .ok v') ↔
    v.data.kind ≠ .states ∧ offset + data.length ≤ 4 * v.count := by
  rw [kind_ne_states_iff]
  constructor
  · rintro ⟨v', hwrite⟩
    cases hbytes : v.bytes with
    | error x =>
      rw [writeBytes, hbytes] at hwrite
      exact nomatch hwrite
    | ok bs =>
      rw [writeBytes_of_bytes hbytes] at hwrite
      split_ifs at hwrite with hfits
      exact ⟨⟨bs, rfl⟩, length_of_bytes hbytes ▸ hfits⟩
  · rintro ⟨⟨bs, hbytes⟩, hfits⟩
    rw [writeBytes_of_bytes hbytes, if_pos (length_of_bytes hbytes ▸ hfits)]
    exact ⟨_, rfl⟩

theorem written_of_writeBytes (h : v.writeBytes offset data = .ok v') :
    Written offset data v v' := by
  obtain ⟨hkind, hfits⟩ := writeBytes_isOk_iff.mp ⟨v', h⟩
  obtain ⟨bs, hbytes⟩ := kind_ne_states_iff.mp hkind
  rw [← length_of_bytes hbytes] at hfits
  rw [writeBytes_of_bytes hbytes, if_pos hfits] at h
  cases h
  have hbytes' : (v.withBytes (spliced offset data bs)).bytes = .ok (spliced offset data bs) :=
    bytes_withBytes hbytes length_spliced
  refine ⟨?_, ?_, ?_, bs, _, hbytes, hbytes', fun k => ?_⟩
  · rcases v with ⟨_, _, _, ws | ws | ss⟩ <;> rfl
  · rcases v with ⟨_, _, _, ws | ws | ss⟩ <;> rfl
  · have hlength := length_of_bytes hbytes'
    rw [length_spliced, length_of_bytes hbytes] at hlength
    omega
  · simp only [getElem?_spliced, hfits, true_and]

/-- The value after a write. One that fails leaves it as it is. -/
def overwritten (v : Value) (offset : Nat) (data : List UInt8) : Value :=
  (v.writeBytes offset data).toOption.getD v

theorem overwritten_of_bytes (h : v.bytes = .ok bs) :
    v.overwritten offset data = v.withBytes (spliced offset data bs) := by
  rw [overwritten, writeBytes_of_bytes h]
  split_ifs with hfits
  · rfl
  · rw [spliced, if_neg hfits, withBytes_of_bytes h]
    rfl

theorem overwritten_comm (h : offset + data.length ≤ offset' ∨ offset' + data'.length ≤ offset) :
    (v.overwritten offset data).overwritten offset' data' =
      (v.overwritten offset' data').overwritten offset data := by
  cases hbytes : v.bytes with
  | error x =>
    have hsame (offset : Nat) (data : List UInt8) : v.overwritten offset data = v := by
      rw [overwritten, writeBytes, hbytes]
      rfl
    simp only [hsame]
  | ok bs =>
    have hfirst (offset : Nat) (data : List UInt8) :=
      bytes_withBytes hbytes (@length_spliced offset data bs)
    simp only [overwritten_of_bytes hbytes, overwritten_of_bytes (hfirst _ _), withBytes_withBytes,
      spliced_comm h]

end Value

/-! ### Effects -/

variable {e : Effect} {param : Nat} {data : List UInt8} {offset : Nat}

theorem step_setRaw : e.step (.setRaw param data offset) =
    { e with params := e.params.modify param fun p =>
      { p with value := p.value.overwritten offset data } } := by
  rw [step, CursorCall.result, setRaw, modify_eq_set_getElem?]
  cases hp : e.params[param]? with
  | none => rfl
  | some p =>
    cases hwrite : p.value.writeBytes offset data with
    | ok v =>
      have hvalue : p.value.overwritten offset data = v := by
        rw [Value.overwritten, hwrite, Except.toOption, Option.getD_some]
      simp [hwrite, hvalue, bind, Except.bind, pure, Except.pure]
    | error x =>
      have hvalue : p.value.overwritten offset data = p.value := by
        rw [Value.overwritten, hwrite, Except.toOption, Option.getD_none]
      obtain ⟨hlt, rfl⟩ := List.getElem?_eq_some_iff.mp hp
      have hset := set_getElem_self hlt
      simp [hwrite, hvalue, bind, Except.bind, hset]

theorem setRawNamed_of_first {name : String} {p : Param} (hp : e.params[param]? = some p)
    (hname : p.value.name = some name)
    (hfirst : ∀ n < param, ∀ q, e.params[n]? = some q → q.value.name ≠ some name) :
    e.setRawNamed name data offset = e.setRaw param data offset := by
  obtain ⟨hlt, rfl⟩ := List.getElem?_eq_some_iff.mp hp
  have hindex : e.paramIndex? name = some param :=
    findIdx?_eq_some_iff_getElem.mpr ⟨hlt, by simp [hname], fun n hn => by
      simp [hfirst n hn _ (getElem?_eq_getElem (Nat.lt_trans hn hlt))]⟩
  rw [setRawNamed, hindex]

theorem setRawNamed_of_unknown {name : String}
    (h : ∀ p ∈ e.params, p.value.name ≠ some name) :
    e.setRawNamed name data offset = .error (.unknownParameter name) := by
  have hindex : e.paramIndex? name = none :=
    findIdx?_eq_none_iff.mpr fun p hp => by simp [h p hp]
  rw [setRawNamed, hindex]

theorem run_setRaw_comm {param' : Nat} {data' : List UInt8} {offset' : Nat}
    (h : param = param' → offset + data.length ≤ offset' ∨ offset' + data'.length ≤ offset) :
    e.run [.setRaw param data offset, .setRaw param' data' offset'] =
      e.run [.setRaw param' data' offset', .setRaw param data offset] := by
  simp only [run, foldl_cons, foldl_nil, step_setRaw]
  by_cases hparam : param = param'
  · subst hparam
    simp only [modify_modify_eq, Function.comp_def, Value.overwritten_comm (h rfl)]
  · rw [modify_modify_ne _ _ _ hparam]

theorem step_of_error {c : CursorCall} {x : UsageError} (h : c.result e = .error x) :
    e.step c = e := by
  rw [step, h]

/-- A raw write succeeds exactly if the parameter holds words and the data fits into them. Then it
replaces these bytes and nothing else; otherwise the effect stays as it is. By name, the first
parameter with the name is written to. Writes of bytes that lie apart can be exchanged. -/
theorem raw_writes_splice (e : Effect) (param : Nat) (data : List UInt8) (offset : Nat) :
    ((∃ e', e.setRaw param data offset = .ok e') ↔ ∃ p, e.params[param]? = some p ∧
      p.value.data.kind ≠ .states ∧ offset + data.length ≤ 4 * p.value.count) ∧
    (∀ e', e.setRaw param data offset = .ok e' → ∃ p v, e.params[param]? = some p ∧
      e' = { e with params := e.params.set param { p with value := v } } ∧
      Value.Written offset data p.value v) ∧
    (∀ x, e.setRaw param data offset = .error x → e.step (.setRaw param data offset) = e) ∧
    (∀ name p, e.params[param]? = some p → p.value.name = some name →
      (∀ n < param, ∀ q, e.params[n]? = some q → q.value.name ≠ some name) →
      e.setRawNamed name data offset = e.setRaw param data offset) ∧
    (∀ name, (∀ p ∈ e.params, p.value.name ≠ some name) →
      e.setRawNamed name data offset = .error (.unknownParameter name) ∧
        e.step (.setRawNamed name data offset) = e) ∧
    (∀ param' data' offset',
      (param = param' → offset + data.length ≤ offset' ∨ offset' + data'.length ≤ offset) →
      e.run [.setRaw param data offset, .setRaw param' data' offset'] =
        e.run [.setRaw param' data' offset', .setRaw param data offset]) := by
  refine ⟨?_, fun e' h => ?_, fun x h => step_of_error h,
    fun name p hp hname hfirst => setRawNamed_of_first hp hname hfirst,
    fun name h => ⟨setRawNamed_of_unknown h, step_of_error (setRawNamed_of_unknown h)⟩,
    fun param' data' offset' h => run_setRaw_comm h⟩
  · simp only [setRaw_eq_ok_iff, ← Value.writeBytes_isOk_iff]
    constructor
    · rintro ⟨e', p, v, hp, hwrite, -⟩
      exact ⟨p, hp, v, hwrite⟩
    · rintro ⟨p, hp, v, hwrite⟩
      exact ⟨_, p, v, hp, hwrite, rfl⟩
  · obtain ⟨p, v, hp, hwrite, rfl⟩ := setRaw_eq_ok_iff.mp h
    exact ⟨p, v, hp, rfl, Value.written_of_writeBytes hwrite⟩

end Effect

end ShaderPipeline
