import GatewayPlan.Proofs.Codec.Config
import GatewayPlan.Proofs.Text.Case
import Mathlib.Data.List.Forall2

/-!
# How methods are spelled and read

A method is spelled by its name in any ASCII case, and any method also by an asterisk. The methods
of a route are read from one spelling or from a list of them, and the first item that spells none is
what is told of a list that cannot be read.
-/

namespace GatewayPlan.Method

open GatewayPlan.Tree

/-! ### Spellings -/

/-- The text is the name of the method once its ASCII letters are in upper case. -/
def Spells (s : String) (m : Method) : Prop :=
  s.map Char.toUpper = m.name ∨ (s = "*" ∧ m = .any)

theorem eq_asterisk_of_toUpper {c : Char} (h : c.toUpper = '*') : c = '*' := by
  rw [← Char.toNat_inj, Text.toNat_toUpper, show '*'.toNat = 42 from rfl] at h
  rw [← Char.toNat_inj, show '*'.toNat = 42 from rfl]
  split at h <;> omega

theorem map_toUpper_eq_asterisk_iff {s : String} : s.map Char.toUpper = "*" ↔ s = "*" := by
  constructor
  · intro h
    have chars : s.toList.map Char.toUpper = ['*'] := by
      rw [← String.toList_map, h]
      rfl
    obtain ⟨c, own, upper⟩ := List.map_eq_singleton_iff.mp chars
    apply String.toList_inj.mp
    rw [own, eq_asterisk_of_toUpper upper]
    rfl
  · rintro rfl
    decide +kernel

theorem name_ne_asterisk (m : Method) : m.name ≠ "*" := by
  cases m <;> decide

theorem find?_name_eq_some_iff {text : String} {m : Method} :
    all.find? (fun m => m.name = text) = some m ↔ text = m.name := by
  constructor
  · intro found
    simpa [eq_comm] using List.find?_some found
  · rintro rfl
    cases m <;> decide +kernel

theorem ofText?_eq_some_iff {s : String} {m : Method} : ofText? s = some m ↔ Spells s m := by
  rw [ofText?, Spells]
  split
  · rename_i asterisk
    rw [asterisk, map_toUpper_eq_asterisk_iff.mp asterisk, Option.some.injEq]
    constructor
    · rintro rfl
      exact .inr ⟨rfl, rfl⟩
    · rintro (own | ⟨-, rfl⟩)
      · exact absurd own.symm (name_ne_asterisk m)
      · rfl
  · rename_i asterisk
    rw [find?_name_eq_some_iff, map_toUpper_eq_asterisk_iff] at *
    exact ⟨.inl, fun own => own.resolve_right fun other => asterisk other.1⟩

theorem ofText_eq_ok_iff {s : String} {m : Method} : ofText s = .ok m ↔ Spells s m := by
  rw [← ofText?_eq_some_iff, ofText]
  cases ofText? s <;> simp

theorem ofText_eq_error_iff {s : String} {e : Error} : ofText s = .error e ↔
    (∀ m, ¬ Spells s m) ∧ e = .config (.unknownMethod s) := by
  simp only [← ofText?_eq_some_iff, ofText, ← Option.eq_none_iff_forall_ne_some]
  cases ofText? s <;> simp [eq_comm]

/-- What a text spells does not depend on the case of its ASCII letters. -/
theorem spells_of_toLower_eq {s t : String} {m : Method}
    (same : s.map Char.toLower = t.map Char.toLower) (h : Spells s m) : Spells t m := by
  have upper : s.map Char.toUpper = t.map Char.toUpper := by
    have twice : ∀ u : String, (u.map Char.toLower).map Char.toUpper = u.map Char.toUpper := by
      intro u
      apply String.toList_inj.mp
      simp only [String.toList_map, List.map_map, Function.comp_def, Text.toUpper_toLower]
    rw [← twice s, same, twice t]
  rcases h with named | ⟨asterisk, rfl⟩
  · exact .inl (upper ▸ named)
  · rw [← map_toUpper_eq_asterisk_iff, upper, map_toUpper_eq_asterisk_iff] at asterisk
    exact .inr ⟨asterisk, rfl⟩

theorem ascii_of_mem_name {m : Method} {c : Char} (h : c ∈ m.name.toList) : c.toNat < 128 := by
  have each : m.name.toList.all fun c => decide (c.toNat < 128) := by
    cases m <;> decide +kernel
  simpa using List.all_eq_true.mp each c h

theorem ascii_of_spells {s : String} {m : Method} (h : Spells s m) :
    ∀ c ∈ s.toList, c.toNat < 128 := by
  intro c mem
  by_contra high
  rw [not_lt] at high
  rcases h with named | ⟨rfl, -⟩
  · have inName : c ∈ m.name.toList := by
      rw [← named, String.toList_map, List.mem_map]
      exact ⟨c, mem, Text.toUpper_eq_self_of_not_ascii high⟩
    exact absurd (ascii_of_mem_name inName) (not_lt.mpr high)
  · rw [show c = '*' by simpa using mem] at high
    exact absurd high (by decide)

/-! ### Reading -/

def readName : Node → Except String Method
  | .text s => (ofText s).mapError Error.message
  | _ => .error "Expected string or array of strings"

/-- The node is a text that spells the method. -/
def Names (n : Node) (m : Method) : Prop :=
  ∃ s, n = .text s ∧ Spells s m

/-- What is told of a node that names no method. -/
inductive Offends : Node → String → Prop
  | unknown {s : String} : (∀ m, ¬ Spells s m) →
      Offends (.text s) ("Configuration error: Unknown HTTP method '" ++ s ++ "'")
  | type {n : Node} : (∀ s, n ≠ .text s) → Offends n "Expected string or array of strings"

theorem readName_eq_ok_iff {n : Node} {m : Method} : readName n = .ok m ↔ Names n m := by
  unfold readName Names
  split
  · rename_i s
    rw [Except.mapError_eq_ok_iff, ofText_eq_ok_iff]
    simp only [Node.text.injEq, exists_eq_left']
  · rename_i other
    refine ⟨nofun, ?_⟩
    rintro ⟨s, text, -⟩
    exact absurd text (other s)

theorem readName_eq_error_iff {n : Node} {reason : String} :
    readName n = .error reason ↔ Offends n reason := by
  constructor
  · intro h
    unfold readName at h
    split at h
    · obtain ⟨e, read, rfl⟩ := Except.mapError_eq_error_iff.mp h
      obtain ⟨none, rfl⟩ := ofText_eq_error_iff.mp read
      exact .unknown none
    · rename_i other
      cases h
      exact .type other
  · intro h
    cases h with
    | unknown none =>
      exact Except.mapError_eq_error_iff.mpr ⟨_, ofText_eq_error_iff.mpr ⟨none, rfl⟩, rfl⟩
    | type other =>
      unfold readName
      split
      · rename_i s
        exact absurd rfl (other s)
      · rfl

theorem readNames_eq (ns : List Node) : readNames ns = ns.mapM readName := by
  induction ns with
  | nil => rfl
  | cons n rest ih =>
    rw [List.mapM_cons, ← ih]
    cases n <;> rfl

/-- The methods that a value lists: one by a text, or any number by a list of texts. -/
inductive Lists : Node → List Method → Prop
  | one {s : String} {m : Method} : Spells s m → Lists (.text s) [m]
  | many {ns : List Node} {ms : List Method} : List.Forall₂ Names ns ms → Lists (.seq ns) ms

/-- What is told of a value that lists no methods. -/
inductive Refuses : Node → String → Prop
  | single {v : Node} {reason : String} : (∀ ns, v ≠ .seq ns) → Offends v reason →
      Refuses v reason
  | item {before after : List Node} {n : Node} {reason : String} :
      (∀ other ∈ before, ∃ m, Names other m) → Offends n reason →
      Refuses (.seq (before ++ n :: after)) reason

/-- A value that is no list is read as the only item of one. -/
theorem readSettled_single {v : Node} (h : ∀ ns, v ≠ .seq ns) :
    readSettled v = [v].mapM readName := by
  cases v with
  | text s => exact readNames_eq [.text s]
  | seq ns => exact absurd rfl (h ns)
  | _ => rfl

theorem readSettled_seq (ns : List Node) : readSettled (.seq ns) = ns.mapM readName :=
  readNames_eq ns

theorem mapM_readName_eq_ok_iff {ns : List Node} {ms : List Method} :
    ns.mapM readName = .ok ms ↔ List.Forall₂ Names ns ms := by
  rw [Except.mapM_eq_ok_iff]
  simp only [readName_eq_ok_iff]

theorem mapM_readName_eq_error_iff {ns : List Node} {reason : String} :
    ns.mapM readName = .error reason ↔ ∃ before n after, ns = before ++ n :: after ∧
      (∀ other ∈ before, ∃ m, Names other m) ∧ Offends n reason := by
  rw [Except.mapM_eq_error_iff]
  simp only [readName_eq_ok_iff, readName_eq_error_iff]

theorem readSettled_eq_ok_iff {v : Node} {ms : List Method} :
    readSettled v = .ok ms ↔ Lists v ms := by
  constructor
  · intro h
    by_cases list : ∃ ns, v = .seq ns
    · obtain ⟨ns, rfl⟩ := list
      rw [readSettled_seq, mapM_readName_eq_ok_iff] at h
      exact .many h
    · rw [readSettled_single (not_exists.mp list), mapM_readName_eq_ok_iff] at h
      obtain ⟨m, _, ⟨s, rfl, spelled⟩, rest, rfl⟩ := List.forall₂_cons_left_iff.mp h
      rw [List.forall₂_nil_left_iff.mp rest]
      exact .one spelled
  · intro h
    cases h with
    | @one s m spelled =>
      have notList : ∀ ns, Node.text s ≠ .seq ns := nofun
      rw [readSettled_single notList, mapM_readName_eq_ok_iff]
      exact .cons ⟨_, rfl, spelled⟩ .nil
    | many each => rwa [readSettled_seq, mapM_readName_eq_ok_iff]

theorem readSettled_eq_error_iff {v : Node} {reason : String} :
    readSettled v = .error reason ↔ Refuses v reason := by
  constructor
  · intro h
    by_cases list : ∃ ns, v = .seq ns
    · obtain ⟨ns, rfl⟩ := list
      rw [readSettled_seq, mapM_readName_eq_error_iff] at h
      obtain ⟨before, n, after, rfl, named, offends⟩ := h
      exact .item named offends
    · rw [readSettled_single (not_exists.mp list), mapM_readName_eq_error_iff] at h
      obtain ⟨before, n, after, cut, -, offends⟩ := h
      rcases List.append_eq_singleton_iff.mp cut.symm with ⟨-, own⟩ | ⟨-, none⟩
      · obtain ⟨rfl, -⟩ := List.cons.inj own
        exact .single (not_exists.mp list) offends
      · cases none
  · intro h
    cases h with
    | single notList offends =>
      rw [readSettled_single notList, mapM_readName_eq_error_iff]
      exact ⟨[], v, [], rfl, nofun, offends⟩
    | item named offends =>
      rw [readSettled_seq, mapM_readName_eq_error_iff]
      exact ⟨_, _, _, rfl, named, offends⟩

theorem namesCodec_of_settled {src : Source} {n v : Node} (h : n.settled? = some v) :
    namesCodec.decode src n =
      (readSettled v).mapError fun reason => .mismatch (.refused reason) := by
  simp only [namesCodec, h]

theorem namesCodec_of_malformed {src : Source} {n : Node} (h : n.settled? = none) :
    namesCodec.decode src n = .error .malformed := by
  simp only [namesCodec, h]

theorem namesCodec_eq_ok_iff {src : Source} {n : Node} {ms : List Method} :
    namesCodec.decode src n = .ok ms ↔ ∃ v, n.settled? = some v ∧ Lists v ms := by
  cases settled : n.settled? with
  | none => simp [namesCodec_of_malformed settled]
  | some v =>
    rw [namesCodec_of_settled settled, Except.mapError_eq_ok_iff, readSettled_eq_ok_iff]
    simp

theorem namesCodec_eq_error_iff {src : Source} {n : Node} {fault : Fault} :
    namesCodec.decode src n = .error fault ↔ (n.settled? = none ∧ fault = .malformed) ∨
      ∃ v reason, n.settled? = some v ∧ Refuses v reason ∧
        fault = .mismatch (.refused reason) := by
  cases settled : n.settled? with
  | none => simp [namesCodec_of_malformed settled, eq_comm]
  | some v =>
    rw [namesCodec_of_settled settled, Except.mapError_eq_error_iff]
    simp only [readSettled_eq_error_iff]
    simp [eq_comm]

/-- The methods of a route are read exactly from a text that spells one or from a list of such
texts. -/
theorem namesCodec_reads (src : Source) (n : Node) :
    (∀ ms, namesCodec.decode src n = .ok ms ↔ ∃ v, n.settled? = some v ∧ Lists v ms) ∧
    (∀ fault, namesCodec.decode src n = .error fault ↔
      (n.settled? = none ∧ fault = .malformed) ∨
        ∃ v reason, n.settled? = some v ∧ Refuses v reason ∧
          fault = .mismatch (.refused reason)) ∧
    (∀ s, n.settled? = some (.text s) →
      namesCodec.decode src n = namesCodec.decode src (.seq [n])) ∧
    (∀ s m, ofText s = .ok m ↔ Spells s m) ∧
    (∀ s t m, s.map Char.toLower = t.map Char.toLower → ofText s = .ok m → ofText t = .ok m) ∧
    (∀ s, (∃ c ∈ s.toList, 128 ≤ c.toNat) → ofText s = .error (.config (.unknownMethod s))) ∧
    (∀ ms, namesCodec.decode src n = .ok ms →
      ∀ other, namesCodec.decode other (namesCodec.encode ms) = .ok ms) := by
  refine ⟨fun ms => namesCodec_eq_ok_iff, fun fault => namesCodec_eq_error_iff, ?_,
    fun s m => ofText_eq_ok_iff, ?_, ?_, ?_⟩
  · intro s text
    have items : (Node.seq [n]).settled? = some (.seq [.text s]) := by
      rw [Node.settled?, Node.settledItems?, text]
      rfl
    rw [namesCodec_of_settled text, namesCodec_of_settled items]
    rfl
  · intro s t m same read
    exact ofText_eq_ok_iff.mpr (spells_of_toLower_eq same (ofText_eq_ok_iff.mp read))
  · rintro s ⟨c, mem, high⟩
    refine ofText_eq_error_iff.mpr ⟨fun m spelled => ?_, rfl⟩
    exact absurd (ascii_of_spells spelled c mem) (not_lt.mpr high)
  · intro ms _ other
    have faithful : namesCodec.Faithful Node.anyKey 1 ms := namesCodec_faithful ms
    exact faithful.decode_encode other

theorem namesCodec_reads_get :
    (Node.text "get").settled? = some (.text "get") ∧
    namesCodec.decode .value (.text "get") = namesCodec.decode .value (.seq [.text "get"]) ∧
    namesCodec.decode .value (.text "get") = .ok [.get] ∧
    namesCodec.decode .value (namesCodec.encode [.get]) = .ok [.get] ∧
    "get".map Char.toLower = "GeT".map Char.toLower ∧ ofText "GeT" = .ok .get ∧
    (∃ c ∈ "ɢET".toList, 128 ≤ c.toNat) ∧
      ofText "ɢET" = .error (.config (.unknownMethod "ɢET")) := by
  have spelled : Spells "get" .get := .inl (by decide +kernel)
  have folded : "get".map Char.toLower = "GeT".map Char.toLower := by
    rw [← String.toList_inj, String.toList_map, String.toList_map]
    decide +kernel
  have foreign : ∃ c ∈ "ɢET".toList, 128 ≤ c.toNat := ⟨'ɢ', by decide +kernel, by decide⟩
  obtain ⟨reads, -, alone, -, recased, refused, again⟩ :=
    namesCodec_reads .value (.text "get")
  have read := (reads [.get]).mpr ⟨_, rfl, .one spelled⟩
  exact ⟨rfl, alone "get" rfl, read, again _ read .value, folded,
    recased _ _ _ folded (ofText_eq_ok_iff.mpr spelled), foreign, refused _ foreign⟩

end GatewayPlan.Method
