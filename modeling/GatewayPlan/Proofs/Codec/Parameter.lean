import GatewayPlan.Proofs.Codec.Config
import GatewayPlan.Proofs.Template.Grammar
import GatewayPlan.Proofs.Tree.Entries

/-!
# No parameter without a name

Whichever way a parameter is come by, something other than whitespace is in its name. A parameter is
read from a map that states its kind, its name and whether it is required, provided that the name is
not blank, and a configuration that states a blank name anywhere is not read at all.
-/

namespace GatewayPlan

open GatewayPlan.Tree GatewayPlan.Tree.Fields

/-- A text is the tag of the kind that is read from it. -/
theorem ParameterKind.codec_eq_ok_iff {src : Source} {n : Node} {s : String} {k : ParameterKind}
    (h : n.general = .text s ∨ n.general = .plain s) : codec.decode src n = .ok k ↔ s = k.tag := by
  have distinct : ((all.map fun k => (k.tag, k)).map Prod.fst).Nodup := by decide
  rw [codec, Codec.choice_of_text h, Codec.pick_eq_ok_iff,
    Keyed.lookup_eq_some_iff_of_nodup distinct]
  constructor
  · intro mem
    obtain ⟨k', -, same⟩ := List.mem_map.mp mem
    cases same
    rfl
  · rintro rfl
    exact List.mem_map_of_mem (mem_all k)

namespace Parameter

def unchecked (p : Parameter) : Unchecked :=
  ⟨p.kind, p.name, p.required⟩

theorem filled_iff (name : String) :
    Text.isBlank name = false ↔ Template.Filled name.toList := by
  rw [← Bool.not_eq_true, Text.isBlank, Template.all_isSpace_iff, not_not]

theorem filled (p : Parameter) : Template.Filled p.name.toList :=
  (filled_iff p.name).mp p.name_not_blank

theorem named_eq_ok_iff {u : Unchecked} {p : Parameter} :
    named u.kind u.name u.required = .ok p ↔ p.unchecked = u := by
  constructor
  · intro h
    unfold named at h
    split at h
    · cases h
      rfl
    · cases h
  · rintro rfl
    exact named_eq_ok p.name_not_blank

theorem exists_named {u : Unchecked} (h : Template.Filled u.name.toList) :
    ∃ p, named u.kind u.name u.required = .ok p :=
  ⟨_, named_eq_ok ((filled_iff u.name).mpr h)⟩

theorem named_of_blank {u : Unchecked} (h : ¬ Template.Filled u.name.toList) :
    named u.kind u.name u.required = .error (.invalidName u.name) :=
  dif_neg fun own => h ((filled_iff u.name).mp own)

/-! ### Reading -/

/-- What is said under the name of a field. -/
def said? (entries : List (Node × Node)) (name : String) : Option Node :=
  (answers Unchecked.fields.slots entries).lookup name

/-- The entries of a map state a parameter: each field at most once, a kind, a name, and whether it
is required, which it is unless something else is said. -/
structure Stated (src : Source) (entries : List (Node × Node)) (u : Unchecked) : Prop where
  keys : ∀ e ∈ entries, ∃ s, slotOf Unchecked.fields.slots e.1 = .ok s ∧
    (s = none → e.2.intact = true)
  once : ((answers Unchecked.fields.slots entries).map Prod.fst).Nodup
  kind : ∃ n, said? entries "type" = some n ∧ ParameterKind.codec.decode src n = .ok u.kind
  name : ∃ n, said? entries "name" = some n ∧ n.Says u.name
  required : (said? entries "required" = none ∧ u.required = true) ∨
    ∃ n, said? entries "required" = some n ∧ n.scalar = .bool u.required

theorem build_eq_ok_iff {met : Met} {u : Unchecked} : Unchecked.fields.build met = .ok u ↔
    (∃ n, met.find? "type" = some n ∧ ParameterKind.codec.decode met.source n = .ok u.kind) ∧
    (∃ n, met.find? "name" = some n ∧ n.Says u.name) ∧
    ((met.find? "required" = none ∧ u.required = true) ∨
      ∃ n, met.find? "required" = some n ∧ n.scalar = .bool u.required) := by
  simp only [Unchecked.fields, build_seq_eq_ok_iff, build_map_eq_ok_iff,
    build_required_eq_ok_iff, build_defaulted_eq_ok_iff, Codec.string_eq_ok_iff,
    Codec.bool_eq_ok_iff]
  constructor
  · rintro ⟨_, ⟨_, ⟨kind, isKind, rfl⟩, name, isName, rfl⟩, required, isRequired, rfl⟩
    exact ⟨isKind, isName, isRequired⟩
  · rintro ⟨isKind, isName, isRequired⟩
    exact ⟨_, ⟨_, ⟨_, isKind, rfl⟩, _, isName, rfl⟩, _, isRequired, rfl⟩

/-- A field of which something is said that can be read. -/
theorem Stated.check {src : Source} {entries : List (Node × Node)} {u : Unchecked}
    (h : Stated src entries u) {s : Slot} (own : s ∈ Unchecked.fields.slots) {v : Node}
    (said : said? entries s.name = some v) : s.check src v = .ok () := by
  have slots : Unchecked.fields.slots = [slot "type" ParameterKind.codec none,
    slot "name" Codec.string none, slot "required" Codec.bool none] := rfl
  simp only [slots, List.mem_cons, List.not_mem_nil, or_false] at own
  rcases own with rfl | rfl | rfl
  · obtain ⟨n, found, read⟩ := h.kind
    cases said.symm.trans found
    exact slot_check_eq_ok_iff.mpr ⟨u.kind, read⟩
  · obtain ⟨n, found, text⟩ := h.name
    cases said.symm.trans found
    exact slot_check_eq_ok_iff.mpr ⟨u.name, Codec.string_eq_ok_iff.mpr text⟩
  · rcases h.required with ⟨missing, -⟩ | ⟨n, found, bool⟩
    · cases said.symm.trans missing
    · cases said.symm.trans found
      exact slot_check_eq_ok_iff.mpr ⟨u.required, Codec.bool_eq_ok_iff.mpr bool⟩

theorem decode_unchecked_eq_ok_iff {src : Source} {n : Node} {entries : List (Node × Node)}
    {u : Unchecked} (map : n.untagged = .map entries) :
    (record "struct RawDescriptor" Unchecked.fields).decode src n = .ok u ↔
      Stated src entries u := by
  simp only [record, map]
  rw [ofEntries_eq_ok_iff, build_eq_ok_iff]
  constructor
  · rintro ⟨admits, once, kind, name, required⟩
    refine ⟨fun e mem => ?_, once, kind, name, required⟩
    cases admits e mem with
    | field s key => exact ⟨s, key, by simp⟩
    | other key intact => exact ⟨none, key, fun _ => intact⟩
  · intro h
    refine ⟨fun e mem => ?_, h.once, h.kind, h.name, h.required⟩
    obtain ⟨found, key, intact⟩ := h.keys e mem
    cases found with
    | none => exact .other key (intact rfl)
    | some s =>
      have said : said? entries s.name = some e.2 :=
        (Keyed.lookup_eq_some_iff_of_nodup h.once).mpr (mem_answers mem key)
      exact .field s key (h.check (mem_of_slotOf key) said)

theorem decode_eq_ok_iff {src : Source} {n : Node} {p : Parameter} :
    codec.decode src n = .ok p ↔
      (record "struct RawDescriptor" Unchecked.fields).decode src n = .ok p.unchecked := by
  rw [codec, Codec.refine_eq_ok_iff]
  simp only [Except.mapError_eq_ok_iff, named_eq_ok_iff, exists_eq_right']

theorem decode_of_blank {src : Source} {n : Node} {u : Unchecked}
    (read : (record "struct RawDescriptor" Unchecked.fields).decode src n = .ok u)
    (blank : ¬ Template.Filled u.name.toList) :
    codec.decode src n = .error (.mismatch (.refused (Error.invalidName u.name).message)) := by
  apply Codec.refine_of_refused read
  rw [named_of_blank blank]
  rfl

/-! ### Ways to come by a parameter -/

/-- What some sequence of operations on parameters gives. -/
inductive Obtainable : Parameter → Prop
  | named {kind : ParameterKind} {name : String} {required : Bool} {p : Parameter} :
      named kind name required = .ok p → Obtainable p
  | known {p : Parameter} : p ∈ [principal, username, permissions, deliverer] → Obtainable p
  | relaxed {p : Parameter} : Obtainable p → Obtainable p.relaxed
  | deduped {ps : List Parameter} {p : Parameter} : (∀ q ∈ ps, Obtainable q) → p ∈ dedupe ps →
      Obtainable p
  | captured {template : String} {ps : List Parameter} {p : Parameter} :
      Template.pathParameters template = .ok ps → p ∈ ps → Obtainable p
  | merged {template : String} {ps qs : List Parameter} {p : Parameter} :
      (∀ q ∈ ps, Obtainable q) → (Template.merge template ps).result = .ok qs → p ∈ qs →
      Obtainable p
  | declared {queries multis headers contexts : List String} {ps : List Parameter} {p : Parameter} :
      declared queries multis headers contexts = .ok ps → p ∈ ps → Obtainable p
  | relaxedByName {ps qs : List Parameter} {names : List String} {p : Parameter} :
      (∀ q ∈ ps, Obtainable q) → relaxNamed ps names = .ok qs → p ∈ qs → Obtainable p
  | read {src : Source} {n : Node} {p : Parameter} : codec.decode src n = .ok p → Obtainable p
  | ofRoute {src : Source} {n : Node} {r : RouteConfig} {p : Parameter} :
      RouteConfig.codec.decode src n = .ok r → p ∈ r.parameters → Obtainable p
  | ofConfig {src : Source} {n : Node} {c : Config} {r : RouteConfig} {p : Parameter} :
      Config.codec.decode src n = .ok c → r ∈ c.routes → p ∈ r.parameters → Obtainable p

end Parameter

/-! ### Names in configurations -/

/-- The name stands in its place in the tree of a parameter. -/
def Parameter.StatesName (n : Node) (name : String) : Prop :=
  ∃ text, Holds Unchecked.fields.slots "name" n text ∧ text.Says name

/-- The tree of a route has a parameter of that name. -/
def RouteConfig.StatesName (n : Node) (name : String) : Prop :=
  ∃ item, HoldsItem fields.slots "parameters" n item ∧ Parameter.StatesName item name

/-- The tree of a configuration has a route with a parameter of that name. -/
def Config.StatesName (n : Node) (name : String) : Prop :=
  ∃ item, HoldsItem fields.slots "routes" n item ∧ RouteConfig.StatesName item name

section Places

variable {src : Source} {n : Node} {name : String}

theorem Parameter.name_of_decode {p : Parameter} (h : codec.decode src n = .ok p)
    (states : StatesName n name) : p.name = name := by
  obtain ⟨text, holds, said⟩ := states
  have distinct : (Unchecked.fields.slots.map Slot.name).Nodup := by decide
  obtain ⟨met, -, built, place⟩ := exists_met_of_decode distinct (decode_eq_ok_iff.mp h)
  obtain ⟨-, ⟨found, own, read⟩, -⟩ := build_eq_ok_iff.mp built
  cases own.symm.trans (place "name" text holds)
  exact read.unique said

theorem RouteConfig.exists_parameter_of_item {item : Node} {r : RouteConfig}
    (h : codec.decode src n = .ok r) (holds : HoldsItem fields.slots "parameters" n item) :
    ∃ p ∈ r.parameters, Parameter.codec.decode src item = .ok p := by
  obtain ⟨v, items, holds, list, mem⟩ := holds
  have distinct : (fields.slots.map Slot.name).Nodup := by decide
  obtain ⟨met, rfl, built, place⟩ := exists_met_of_decode distinct h
  simp only [fields, build_seq_eq_ok_iff, build_map_eq_ok_iff, many] at built
  obtain ⟨_, ⟨_, ⟨_, ⟨_, ⟨_, -, rfl⟩, _, -, rfl⟩, _, -, rfl⟩, _, -, rfl⟩, _, read, rfl⟩ := built
  rw [build_omitted_of_found (place "parameters" v holds)] at read
  exact Codec.exists_of_list_item read list mem

theorem Config.exists_route_of_item {item : Node} {c : Config} (h : codec.decode src n = .ok c)
    (holds : HoldsItem fields.slots "routes" n item) :
    ∃ r ∈ c.routes, RouteConfig.codec.decode src item = .ok r := by
  obtain ⟨v, items, holds, list, mem⟩ := holds
  have distinct : (fields.slots.map Slot.name).Nodup := by decide
  obtain ⟨met, rfl, built, place⟩ := exists_met_of_decode distinct h
  simp only [fields, build_seq_eq_ok_iff, build_map_eq_ok_iff] at built
  obtain ⟨_, ⟨_, ⟨_, ⟨_, ⟨_, ⟨_, ⟨_, ⟨_, -, rfl⟩, _, -, rfl⟩, _, -, rfl⟩, _, -, rfl⟩, _, -, rfl⟩,
    _, -, rfl⟩, _, -, rfl⟩, _, read, rfl⟩ := built
  rw [build_defaulted_of_found (place "routes" v holds)] at read
  exact Codec.exists_of_list_item read list mem

/-- A name that a configuration states is that of one of its parameters, once it is read. -/
theorem Config.exists_name_of_decode {c : Config} (h : codec.decode src n = .ok c)
    (states : StatesName n name) : ∃ r ∈ c.routes, ∃ p ∈ r.parameters, p.name = name := by
  obtain ⟨route, inRoutes, parameter, inParameters, states⟩ := states
  obtain ⟨r, hr, readRoute⟩ := exists_route_of_item h inRoutes
  obtain ⟨p, hp, readParameter⟩ := RouteConfig.exists_parameter_of_item readRoute inParameters
  exact ⟨r, hr, p, hp, Parameter.name_of_decode readParameter states⟩

theorem Config.decode_of_blank (states : StatesName n name)
    (blank : ¬ Template.Filled name.toList) : ∃ fault, codec.decode src n = .error fault := by
  cases h : codec.decode src n with
  | error fault => exact ⟨fault, rfl⟩
  | ok c =>
    obtain ⟨-, -, p, -, rfl⟩ := exists_name_of_decode h states
    exact absurd p.filled blank

end Places

namespace Parameter

/-- No parameter is without a name, and parameters are read exactly from what states one that has
a name. -/
theorem obtainable_has_name :
    (∀ u : Unchecked, (∃ p, Obtainable p ∧ p.unchecked = u) ↔ Template.Filled u.name.toList) ∧
    (∀ src n entries u, n.untagged = .map entries → Stated src entries u →
      ((∃ p, codec.decode src n = .ok p) ↔ Template.Filled u.name.toList) ∧
      (∀ p, codec.decode src n = .ok p → p.unchecked = u) ∧
      (¬ Template.Filled u.name.toList →
        codec.decode src n = .error (.mismatch (.refused (Error.invalidName u.name).message)))) ∧
    (∀ src n entries p, n.untagged = .map entries → codec.decode src n = .ok p →
      Stated src entries p.unchecked) ∧
    (∀ src n s k, n.general = .text s ∨ n.general = .plain s →
      (ParameterKind.codec.decode src n = .ok k ↔ s = k.tag)) ∧
    (∀ src n name, Config.StatesName n name → ¬ Template.Filled name.toList →
      ∃ fault, Config.codec.decode src n = .error fault) ∧
    (∀ src p, codec.decode src (codec.encode p) = .ok p) := by
  refine ⟨fun u => ?_, fun src n entries u map stated => ?_, fun src n entries p map read => ?_,
    fun src n s k => ParameterKind.codec_eq_ok_iff, fun src n name => Config.decode_of_blank,
    fun src p => ?_⟩
  · constructor
    · rintro ⟨p, -, rfl⟩
      exact p.filled
    · intro filled
      obtain ⟨p, made⟩ := exists_named filled
      exact ⟨p, .named made, named_eq_ok_iff.mp made⟩
  · have read := (decode_unchecked_eq_ok_iff map).mpr stated
    have same : ∀ p, codec.decode src n = .ok p → p.unchecked = u := by
      intro p own
      exact Except.ok.inj ((decode_eq_ok_iff.mp own).symm.trans read)
    refine ⟨⟨?_, fun filled => ?_⟩, same, decode_of_blank read⟩
    · rintro ⟨p, own⟩
      rw [← same p own]
      exact p.filled
    · obtain ⟨p, made⟩ := exists_named filled
      rw [← named_eq_ok_iff.mp made] at read
      exact ⟨p, decode_eq_ok_iff.mpr read⟩
  · exact (decode_unchecked_eq_ok_iff map).mp (decode_eq_ok_iff.mp read)
  · have faithful : codec.Faithful Yaml.IsName 1 p := p.codec_faithful
    exact faithful.decode_encode src

/-- A required query parameter as it stands in a tree. -/
def entriesOf (name : String) : List (Node × Node) :=
  [(.text "type", .text "querystring"), (.text "name", .text name)]

theorem stated_entriesOf (src : Source) (name : String) :
    Stated src (entriesOf name) ⟨.query, name, true⟩ where
  keys := by
    intro e mem
    simp only [entriesOf, List.mem_cons, List.not_mem_nil, or_false] at mem
    rcases mem with rfl | rfl
    · exact ⟨_, rfl, nofun⟩
    · exact ⟨_, rfl, nofun⟩
  once := by
    change ["type", "name"].Nodup
    decide
  kind := ⟨_, rfl, rfl⟩
  name := ⟨_, rfl, .inl rfl⟩
  required := .inl ⟨rfl, rfl⟩

/-- A shop whose only route has only that parameter. -/
def shop (name : String) : Node :=
  .fields [("name", .text "shop"), ("upstream", .fields [("base_url", .text "https://shop.test")]),
    ("routes", .seq [.fields [("path", .text "/items"), ("methods", .text "get"),
      ("parameters", .seq [.map (entriesOf name)])]])]

theorem shop_statesName (name : String) : Config.StatesName (shop name) name :=
  ⟨_, ⟨_, _, .entry rfl (.tail _ (.tail _ (.head _))) rfl rfl, rfl, .head _⟩,
    _, ⟨_, _, .entry rfl (.tail _ (.tail _ (.head _))) rfl rfl, rfl, .head _⟩,
    _, .entry rfl (.tail _ (.head _)) rfl rfl, .inl rfl⟩

theorem obtainable_has_name_shop :
    (∃ p, codec.decode .value (.map (entriesOf "id")) = .ok p ∧ p.unchecked = ⟨.query, "id", true⟩ ∧
      Stated .value (entriesOf "id") p.unchecked) ∧
    codec.decode .value (.map (entriesOf "\t ")) =
      .error (.mismatch (.refused (Error.invalidName "\t ").message)) ∧
    ParameterKind.codec.decode .value (.plain "querystring") = .ok .query ∧
    (∃ c, Config.codec.decode .value (shop "id") = .ok c) ∧
    ∃ fault, Config.codec.decode .value (shop "\t ") = .error fault := by
  have filled : Template.Filled "id".toList := (filled_iff "id").mp (by decide +kernel)
  have blank : ¬ Template.Filled "\t ".toList := by
    rw [← filled_iff]
    decide +kernel
  obtain ⟨-, reads, states, kinds, spoils, -⟩ := obtainable_has_name
  obtain ⟨accepted, same, -⟩ := reads _ (.map _) _ _ rfl (stated_entriesOf .value "id")
  obtain ⟨-, -, refused⟩ := reads _ (.map _) _ _ rfl (stated_entriesOf .value "\t ")
  obtain ⟨p, read⟩ := accepted.mpr filled
  refine ⟨⟨p, read, same p read, states .value _ _ p rfl read⟩, refused blank,
    (kinds _ _ "querystring" _ (.inr rfl)).mpr rfl, ?_,
    spoils .value _ _ (shop_statesName "\t ") blank⟩
  have whole : (Config.codec.decode .value (shop "id")).isOk = true := by decide +kernel
  cases h : Config.codec.decode .value (shop "id") with
  | ok c => exact ⟨c, rfl⟩
  | error fault =>
    rw [h] at whole
    cases whole

end Parameter

end GatewayPlan
