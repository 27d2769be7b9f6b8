import GatewayPlan.Codec.Integration
import GatewayPlan.Proofs.Tree.Record

/-!
# Integrations are read back

An integration is written with its kind among its own fields and those of its mapping set. It is
read back although the kind may come last, and although two readers go over the same entries: no
field of the mapping set goes by a name of the integration, and none by the name of the kind.
-/

namespace GatewayPlan

open GatewayPlan.Tree GatewayPlan.Tree.Codec GatewayPlan.Tree.Fields

variable {keys : String → Prop} {depth : Nat}

theorem Method.codec_faithful (m : Method) : Method.codec.Faithful keys depth m :=
  choice_faithful (by cases m <;> decide)

theorem Authorization.codec_faithful (a : Authorization) :
    Authorization.codec.Faithful keys depth a :=
  choice_faithful (by cases a <;> decide)

theorem Passthrough.codec_faithful (p : Passthrough) :
    Passthrough.codec.Faithful keys depth p :=
  choice_faithful (by cases p <;> decide)

theorem IntegrationResponse.codec_faithful (r : IntegrationResponse) :
    IntegrationResponse.codec.Faithful Node.anyKey (depth + 2) r :=
  record_faithful _
    (.seq (.seq (.map (required_faithful (string_faithful _)) rfl)
      (required_faithful (string_faithful _)) rfl)
      (Fields.keyed_faithful fun _ _ => string_faithful _) rfl)
    (by decide) fun _ _ => trivial

theorem MethodResponse.codec_faithful (r : MethodResponse) :
    MethodResponse.codec.Faithful Node.anyKey (depth + 2) r :=
  record_faithful _
    (.seq (.map (required_faithful (string_faithful _)) rfl)
      (Fields.keyed_faithful fun _ _ => bool_faithful _) rfl)
    (by decide) fun _ _ => trivial

theorem MappingSet.fields_faithful (depth : Nat) (set : MappingSet) :
    MappingSet.fields.Faithful Node.anyKey (depth + 1) set set :=
  .seq (.seq (.map (required_faithful (Codec.keyed_faithful fun _ _ => bool_faithful _)) rfl)
    (required_faithful (Codec.keyed_faithful fun _ _ => string_faithful _)) rfl)
    (optionalInMap_faithful fun _ _ =>
      ⟨Codec.keyed_faithful fun _ _ => string_faithful _, nofun⟩) rfl

/-- The fields of a mapping set stand between two parts of the fields around them. -/
theorem perm_of_flattened {α : Type} {ws first inner last : List α}
    (perm : ws.Perm (first ++ inner ++ last)) : ws.Perm ((first ++ last) ++ inner) := by
  rw [List.append_assoc] at perm ⊢
  exact perm.trans (List.perm_append_comm.append_left first)

section

variable {es : List (Node × Node)} {ws : List (String × Node)}
  (entries : List.Forall₂ (fun e w => Node.EntryStandsFor e (.text w.1, w.2)) es ws)

include entries

namespace HttpIntegration

omit entries in
theorem own_faithful (depth : Nat) (h : HttpIntegration) :
    (Prod.mk <$> head <*> tail).Faithful Node.anyKey (depth + 3) h
      ((h.uri, h.method, h.passthrough), h.responses) :=
  .seq (.map
    (.seq (.seq (.map (required_faithful (string_faithful _)) rfl)
      (required_faithful (Method.codec_faithful _)) rfl)
      (required_faithful (Passthrough.codec_faithful _)) rfl) rfl)
    (required_faithful (list_faithful fun r _ => r.codec_faithful)) rfl

theorem ofEntries_eq_ok {h : HttpIntegration} (perm : ws.Perm h.write) :
    ofEntries es = .ok h := by
  obtain ⟨own, mappings⟩ := (own_faithful 0 h).ofEntries_both
    (MappingSet.fields_faithful 2 h.mappings) (by decide) .heldBack entries
    (perm_of_flattened perm)
  unfold ofEntries
  rw [own, mappings]
  rfl

end HttpIntegration

namespace ServiceIntegration

omit entries in
theorem own_faithful (depth : Nat) (s : ServiceIntegration) :
    (Prod.mk <$> head <*> tail).Faithful Node.anyKey (depth + 3) s
      ((s.service, s.method, s.path, s.role, s.passthrough), s.responses) :=
  .seq (.map
    (.seq (.seq (.seq (.seq (.map (required_faithful (string_faithful _)) rfl)
      (required_faithful (Method.codec_faithful _)) rfl)
      (required_faithful (string_faithful _)) rfl)
      (required_faithful (string_faithful _)) rfl)
      (required_faithful (Passthrough.codec_faithful _)) rfl) rfl)
    (required_faithful (list_faithful fun r _ => r.codec_faithful)) rfl

theorem ofEntries_eq_ok {s : ServiceIntegration} (perm : ws.Perm s.write) :
    ofEntries es = .ok s := by
  obtain ⟨own, mappings⟩ := (own_faithful 0 s).ofEntries_both
    (MappingSet.fields_faithful 2 s.mappings) (by decide) .heldBack entries
    (perm_of_flattened perm)
  unfold ofEntries
  rw [own, mappings]
  rfl

end ServiceIntegration

end

namespace Integration

def kind : Integration → Kind
  | function _ => .function
  | http _ => .http
  | service _ => .service

/-- The fields of an integration other than its kind. -/
def write : Integration → List (String × Node)
  | function name => functionFields.write name
  | http h => h.write
  | service s => s.write

theorem functionFields_faithful (depth : Nat) (name : String) :
    functionFields.Faithful Node.anyKey depth name name :=
  required_faithful (string_faithful name)

def Kind.name : Kind → String
  | function => "FUNCTION"
  | http => "HTTP"
  | service => "AWS"

theorem encode_eq (i : Integration) :
    i.encode = .fields (("type", .text i.kind.name) :: i.write) := by
  cases i <;> rfl

theorem kindOf_of_standsFor {v : Node} {k : Kind} (h : v.StandsFor (.text k.name)) :
    kindOf v = .ok k := by
  have known : pick Kind.table k.name = .ok k := by cases k <;> rfl
  rcases Node.standsFor_text_iff.mp h with rfl | ⟨rfl, -⟩ <;> exact known

theorem settle_eq_ok {m n : Node} (h : m.settled? = some n) : settle m = .ok n := by
  rw [settle, h]

theorem holdBack_cons_kind {key v : Node} {k : Kind} (named : settle key = .ok (.text "type"))
    (known : kindOf v = .ok k) (held rest : List (Node × Node)) :
    holdBack none held ((key, v) :: rest) = holdBack (some k) held rest := by
  rw [holdBack, named]
  simp only [bind, Except.bind, known]
  rfl

theorem holdBack_cons_other {key v v' : Node} {name : String}
    (named : settle key = .ok (.text name)) (other : name ≠ "type") (settles : settle v = .ok v')
    (kind : Option Kind) (held rest : List (Node × Node)) :
    holdBack kind held ((key, v) :: rest) =
      holdBack kind (held ++ [(.text name, v')]) rest := by
  rw [holdBack, named]
  simp only [bind, Except.bind]
  split
  · rename_i h
    cases h
    exact absurd rfl other
  · rw [settles]

/-- The kind may stand anywhere among the entries. The others are held back in their order, and
stand for what they stood for. -/
theorem holdBack_of_standsFor {k : Kind} {es : List (Node × Node)} {ws : List (String × Node)}
    (entries : List.Forall₂ (fun e w => Node.EntryStandsFor e (.text w.1, w.2)) es ws)
    (settled : ∀ w ∈ ws, w.2.settled? = some w.2) (distinct : (ws.map Prod.fst).Nodup)
    (kind : Option Kind) (held : List (Node × Node))
    (known : (kind = some k ∧ "type" ∉ ws.map Prod.fst) ∨
      (kind = none ∧ ("type", .text k.name) ∈ ws)) :
    ∃ others, holdBack kind held es = .ok (k, held ++ others) ∧
      List.Forall₂ (fun e w => e.1 = .text w.1 ∧ e.2.StandsFor w.2) others
        (ws.filter fun w => w.1 ≠ "type") := by
  induction entries generalizing kind held with
  | nil =>
    rcases known with ⟨rfl, -⟩ | ⟨-, mem⟩
    · exact ⟨[], by rw [List.append_nil]; rfl, .nil⟩
    · cases mem
  | @cons e w es ws head _ ih =>
    obtain ⟨key, v⟩ := e
    obtain ⟨name, n⟩ := w
    obtain ⟨named, stands⟩ := head
    have named : settle key = .ok (.text name) :=
      settle_eq_ok (Node.settled?_of_standsFor_text named)
    obtain ⟨notMem, distinct'⟩ := List.nodup_cons.mp distinct
    have settled' : ∀ w ∈ ws, w.2.settled? = some w.2 := fun w mem =>
      settled w (List.mem_cons_of_mem _ mem)
    by_cases tag : name = "type"
    · subst tag
      rcases known with ⟨-, absent⟩ | ⟨rfl, mem⟩
      · exact absurd List.mem_cons_self absent
      · have own : n = .text k.name := by
          rcases List.mem_cons.mp mem with eq | later
          · exact (Prod.mk.inj eq).2.symm
          · exact absurd (List.mem_map_of_mem later) notMem
        obtain ⟨others, read, stand⟩ := ih settled' distinct' (some k) held (.inl ⟨rfl, notMem⟩)
        refine ⟨others, ?_, by simpa using stand⟩
        rw [holdBack_cons_kind named (kindOf_of_standsFor (own ▸ stands)), read]
    · obtain ⟨v', settles, stands⟩ := stands.settles (settled (name, n) List.mem_cons_self)
      have known' : (kind = some k ∧ "type" ∉ ws.map Prod.fst) ∨
          (kind = none ∧ ("type", .text k.name) ∈ ws) := by
        rcases known with ⟨some, absent⟩ | ⟨none, mem⟩
        · exact .inl ⟨some, fun mem => absent (List.mem_cons_of_mem _ mem)⟩
        · refine .inr ⟨none, (List.mem_cons.mp mem).resolve_left fun eq => tag ?_⟩
          exact (Prod.mk.inj eq).1.symm
      obtain ⟨others, read, stand⟩ :=
        ih settled' distinct' kind (held ++ [(.text name, v')]) known'
      refine ⟨(.text name, v') :: others, ?_, ?_⟩
      · rw [holdBack_cons_other named tag (settle_eq_ok settles), read, List.append_assoc]
        rfl
      · rw [List.filter_cons_of_pos (by simpa using tag)]
        exact .cons ⟨rfl, stands⟩ stand

/-- What is written of an integration besides its kind goes by names that differ from each other
and from that of the kind. -/
theorem write_spec (depth : Nat) (i : Integration) :
    (∀ w ∈ i.write, w.2.Written Node.anyKey (depth + 3)) ∧
    ("type" :: i.write.map Prod.fst).Nodup := by
  cases i with
  | function name =>
    have kept := functionFields_faithful (depth + 3) name (by decide)
    have names : ("type" :: functionFields.slots.map Slot.name).Nodup := by decide
    exact ⟨kept.written, names.sublist (kept.names.cons_cons "type")⟩
  | http h =>
    have names : ("type" :: (((Prod.mk <$> HttpIntegration.head <*> HttpIntegration.tail).slots ++
      MappingSet.fields.slots).map Slot.name)).Nodup := by decide
    obtain ⟨written, sublist⟩ := (HttpIntegration.own_faithful depth h).written_both
      (MappingSet.fields_faithful (depth + 2) h.mappings) (List.nodup_cons.mp names).2
    have perm := perm_of_flattened (List.Perm.refl h.write)
    refine ⟨fun w mem => written w (perm.subset mem), ?_⟩
    exact ((perm.map Prod.fst).cons "type").nodup_iff.mpr
      (names.sublist (sublist.cons_cons "type"))
  | service s =>
    have names : ("type" :: (((Prod.mk <$> ServiceIntegration.head <*>
      ServiceIntegration.tail).slots ++ MappingSet.fields.slots).map Slot.name)).Nodup := by
      decide
    obtain ⟨written, sublist⟩ := (ServiceIntegration.own_faithful depth s).written_both
      (MappingSet.fields_faithful (depth + 2) s.mappings) (List.nodup_cons.mp names).2
    have perm := perm_of_flattened (List.Perm.refl s.write)
    refine ⟨fun w mem => written w (perm.subset mem), ?_⟩
    exact ((perm.map Prod.fst).cons "type").nodup_iff.mpr
      (names.sublist (sublist.cons_cons "type"))

/-- The names under which the parts of an integration are written. -/
theorem nodup_names (i : Integration) : ("type" :: i.write.map Prod.fst).Nodup :=
  (i.write_spec 0).2

/-- Under a name of the mapping set there stands what was written of it, and nothing else. -/
theorem mem_write_iff {i : Integration} {set : MappingSet} (has : i.mappings? = some set) {s : Slot}
    (own : s ∈ MappingSet.fields.slots) {n : Node} :
    (s.name, n) ∈ i.write ↔ (s.name, n) ∈ MappingSet.fields.write set := by
  cases i with
  | function name => cases has
  | http h =>
    cases has
    have names : (((Prod.mk <$> HttpIntegration.head <*> HttpIntegration.tail).slots ++
      MappingSet.fields.slots).map Slot.name).Nodup := by decide
    exact (perm_of_flattened (List.Perm.refl h.write)).mem_iff.trans
      ((HttpIntegration.own_faithful 0 h).mem_both_iff names own)
  | service s =>
    cases has
    have names : (((Prod.mk <$> ServiceIntegration.head <*> ServiceIntegration.tail).slots ++
      MappingSet.fields.slots).map Slot.name).Nodup := by decide
    exact (perm_of_flattened (List.Perm.refl s.write)).mem_iff.trans
      ((ServiceIntegration.own_faithful 0 s).mem_both_iff names own)

/-- How an integration, its kind and its mapping set share the fields of one map. -/
structure Flattened (i : Integration) (fields : List (String × Node)) : Prop where
  distinct : (fields.map Prod.fst).Nodup
  kind : fields.lookup "type" = some (.text i.kind.name)
  mappings : ∀ set ∈ i.mappings?, ∀ s ∈ MappingSet.fields.slots,
    fields.lookup s.name = (MappingSet.fields.write set).lookup s.name

theorem encode_flattened (i : Integration) :
    ∃ fields, i.encode = .fields fields ∧ i.Flattened fields := by
  have distinct := i.nodup_names
  refine ⟨_, i.encode_eq, distinct, rfl, fun set has s own => ?_⟩
  have other : s.name ≠ "type" := by
    have foreign : "type" ∉ MappingSet.fields.slots.map Slot.name := by decide
    exact fun eq => foreign (eq ▸ List.mem_map_of_mem own)
  have names : ((MappingSet.fields.write set).map Prod.fst).Nodup :=
    have slots : (MappingSet.fields.slots.map Slot.name).Nodup := by decide
    slots.sublist (MappingSet.fields_faithful 0 set slots).names
  rw [Keyed.lookup_cons_eq, if_neg other]
  ext n
  rw [Keyed.lookup_eq_some_iff_of_nodup (List.nodup_cons.mp distinct).2, mem_write_iff has own,
    Keyed.lookup_eq_some_iff_of_nodup names]

theorem isNumbered_of_text {e : Node × Node} {name : String} (key : e.1 = .text name) :
    isNumbered e = false := by
  obtain ⟨k, v⟩ := e
  cases key
  rfl

theorem ofKind_eq_ok (i : Integration) {es : List (Node × Node)} {ws : List (String × Node)}
    (entries : List.Forall₂ (fun e w => e.1 = .text w.1 ∧ e.2.StandsFor w.2) es ws)
    (perm : ws.Perm i.write) : ofKind es i.kind = .ok i := by
  have stand : List.Forall₂ (fun e w => Node.EntryStandsFor e (.text w.1, w.2)) es ws :=
    entries.imp fun e w own => ⟨own.1 ▸ .refl _, own.2⟩
  have named : es.filter (!isNumbered ·) = es := by
    rw [List.filter_eq_self]
    have known := entries.imp fun e w own =>
      (⟨isNumbered_of_text own.1, own⟩ : isNumbered e = false ∧ _)
    intro e mem
    rw [((List.forall₂_and_left es ws).mp known).1 e mem]
    rfl
  have distinct : (i.write.map Prod.fst).Nodup := (List.nodup_cons.mp i.nodup_names).2
  cases i with
  | function name =>
    have read : functionFields.ofEntries .heldBack es = .ok name :=
      (functionFields_faithful 0 name).ofEntries (by decide) _ stand
        ((perm.map Prod.fst).nodup_iff.mpr distinct) perm.symm.subset
        fun w mem other => absurd (perm.subset mem) other
    exact congrArg (Except.map function) read
  | http h =>
    have read : HttpIntegration.ofEntries es = .ok h := HttpIntegration.ofEntries_eq_ok stand perm
    rw [kind, ofKind, named, read]
    rfl
  | service s =>
    have read : ServiceIntegration.ofEntries es = .ok s :=
      ServiceIntegration.ofEntries_eq_ok stand perm
    rw [kind, ofKind, named, read]
    rfl

theorem encode_written (depth : Nat) (i : Integration) :
    ∀ w ∈ ("type", .text i.kind.name) :: i.write, w.2.Written Node.anyKey (depth + 3) := by
  intro w mem
  rcases List.mem_cons.mp mem with rfl | mem
  · exact .text _
  · exact (i.write_spec depth).1 w mem

theorem codec_faithful (i : Integration) : codec.Faithful Node.anyKey (depth + 4) i where
  written := by
    change i.encode.Written Node.anyKey (depth + 4)
    rw [encode_eq]
    exact .fields (fun _ _ => trivial) (i.encode_written depth) i.nodup_names
  reads src m stands := by
    have names := i.nodup_names
    have stands : m.StandsFor (.fields (("type", .text i.kind.name) :: i.write)) :=
      i.encode_eq ▸ stands
    obtain ⟨es, ws, rfl, perm, entries⟩ := Node.standsFor_map_map_iff.mp stands
    have distinct : (ws.map Prod.fst).Nodup := (perm.map Prod.fst).nodup_iff.mpr names
    have settled : ∀ w ∈ ws, w.2.settled? = some w.2 := fun w mem =>
      (i.encode_written 0 w (perm.subset mem)).settled?
    obtain ⟨others, held, stand⟩ := holdBack_of_standsFor entries settled distinct none []
      (.inr ⟨rfl, perm.mem_iff.mpr List.mem_cons_self⟩)
    have rest : (ws.filter fun w => w.1 ≠ "type").Perm i.write := by
      refine (perm.filter _).trans (.of_eq ?_)
      rw [List.filter_cons_of_neg (by simp), List.filter_eq_self]
      intro w mem
      have other : w.1 ≠ "type" := fun eq =>
        (List.nodup_cons.mp names).1 (eq ▸ List.mem_map_of_mem mem)
      simpa using other
    refine Except.bind_eq_ok_iff.mpr ⟨(i.kind, others), held, ?_⟩
    exact i.ofKind_eq_ok stand rest

end Integration

theorem MethodPlan.codec_faithful (p : MethodPlan) :
    MethodPlan.codec.Faithful Node.anyKey (depth + 5) p :=
  record_faithful _
    (.seq (.seq (.seq (.seq (.seq (.map (required_faithful (string_faithful _)) rfl)
      (required_faithful (Method.codec_faithful _)) rfl)
      (required_faithful (Authorization.codec_faithful _)) rfl)
      (required_faithful (bool_faithful _)) rfl)
      (required_faithful (Integration.codec_faithful _)) rfl)
      (many_faithful fun r _ => r.codec_faithful) rfl)
    (by decide) fun _ _ => trivial

end GatewayPlan
