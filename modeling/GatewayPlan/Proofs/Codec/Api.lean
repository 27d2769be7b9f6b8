import GatewayPlan.Codec.Api
import GatewayPlan.Proofs.Codec.Integration

/-!
# Plans are read back

Whatever a plan holds, it is read back from the tree that is written of it: with the integrations
of their kinds and with their own mappings, with templates only where there were any, and with an
empty list or map for one that was left out.
-/

namespace GatewayPlan

open GatewayPlan.Tree GatewayPlan.Tree.Codec GatewayPlan.Tree.Fields

variable {depth : Nat}

theorem Throttle.codec_faithful {keys : String → Prop}
    (named : ∀ s ∈ Throttle.fields.slots, keys s.name) (t : Throttle) :
    Throttle.codec.Faithful keys (depth + 1) t :=
  record_faithful _
    (.seq (.map (required_faithful (uint32_faithful _)) rfl)
      (required_faithful (uint32_faithful _)) rfl)
    (by decide) named

theorem UsagePlan.codec_faithful (u : UsagePlan) :
    UsagePlan.codec.Faithful Node.anyKey (depth + 2) u :=
  record_faithful _
    (.seq (.seq (.seq (.map (required_faithful (string_faithful _)) rfl)
      (required_faithful (string_faithful _)) rfl)
      (required_faithful (string_faithful _)) rfl)
      (required_faithful (Throttle.codec_faithful (fun _ _ => trivial) _)) rfl)
    (by decide) fun _ _ => trivial

theorem CorsPreflight.codec_faithful (c : CorsPreflight) :
    CorsPreflight.codec.Faithful Node.anyKey (depth + 2) c :=
  record_faithful _
    (.seq (.map (required_faithful (list_faithful fun s _ => string_faithful s)) rfl)
      (required_faithful (list_faithful fun s _ => string_faithful s)) rfl)
    (by decide) fun _ _ => trivial

theorem ErrorClass.codec_faithful (e : ErrorClass) :
    ErrorClass.codec.Faithful Node.anyKey depth e :=
  choice_faithful (by cases e <;> decide)

theorem GatewayResponse.codec_faithful (r : GatewayResponse) :
    GatewayResponse.codec.Faithful Node.anyKey (depth + 2) r :=
  record_faithful _
    (.seq (.map (required_faithful (ErrorClass.codec_faithful _)) rfl)
      (required_faithful (Codec.keyed_faithful fun _ _ => string_faithful _)) rfl)
    (by decide) fun _ _ => trivial

theorem ApiPlan.codec_faithful (p : ApiPlan) : ApiPlan.codec.Faithful Node.anyKey (depth + 7) p :=
  record_faithful _
    (.seq (.seq (.seq (.seq (.seq (.seq (.map (required_faithful (string_faithful _)) rfl)
      (required_faithful (string_faithful _)) rfl)
      (required_faithful (bool_faithful _)) rfl)
      (optional_faithful fun c _ => ⟨c.codec_faithful, nofun⟩) rfl)
      (many_faithful fun r _ => r.codec_faithful) rfl)
      (many_faithful fun u _ => u.codec_faithful) rfl)
      (required_faithful (list_faithful fun m _ => m.codec_faithful)) rfl)
    (by decide) fun _ _ => trivial

/-- A plan is read back from what is written of it, also if the entries of a map have changed
places. No two fields of a map go by one name, those of a mapping set included. -/
theorem ApiPlan.codec_reads_back (p : ApiPlan) (src : Source) :
    codec.decode src (codec.encode p) = .ok p ∧
      (∀ m, m.StandsFor (codec.encode p) → codec.decode src m = .ok p) ∧
      (codec.encode p).Written Node.anyKey 7 ∧
      ∀ q ∈ p.methods, ∃ fields,
        Integration.codec.encode q.integration = .fields fields ∧ q.integration.Flattened fields :=
  have faithful : codec.Faithful Node.anyKey 7 p := p.codec_faithful
  ⟨faithful.decode_encode src, faithful.reads src, faithful.written,
    fun q _ => q.integration.encode_flattened⟩

/-- One method that is sent on, with a map of templates that holds none. -/
def ApiPlan.forwarding : ApiPlan where
  name := "orders"
  stage := "prod"
  apiKeyRequired := false
  corsPreflight := none
  gatewayResponses := []
  usagePlans := []
  methods := [⟨"/orders", .get, .none, false,
    .http ⟨"https://orders.test", .get, .whenNoMatch, ⟨.empty, .empty, some .empty⟩, []⟩, []⟩]

theorem ApiPlan.codec_reads_back_reversed :
    (Node.fields (fields.write forwarding).reverse).StandsFor (codec.encode forwarding) ∧
      codec.decode .value (Node.fields (fields.write forwarding).reverse) = .ok forwarding := by
  have stands : (Node.fields (fields.write forwarding).reverse).StandsFor
      (codec.encode forwarding) :=
    Node.standsFor_map_map_iff.mpr ⟨_, _, rfl, List.reverse_perm _,
      List.forall₂_map_left_iff.mpr (List.forall₂_same.mpr fun _ _ => ⟨.refl _, .refl _⟩)⟩
  exact ⟨stands, (forwarding.codec_reads_back .value).2.1 _ stands⟩

end GatewayPlan
