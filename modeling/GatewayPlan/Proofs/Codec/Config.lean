import GatewayPlan.Codec.Config
import GatewayPlan.Proofs.Codec.Api
import GatewayPlan.Proofs.Yaml.Plain

/-!
# Configurations are read back

A configuration is read back from what is written of it, whether or not it can be planned. What is
written of a URL is its text, so of a URL it takes that its text is read as that URL.
-/

namespace GatewayPlan

open GatewayPlan.Tree GatewayPlan.Tree.Codec GatewayPlan.Tree.Fields

variable {keys : String → Prop} {depth : Nat}

/-- The parts of a normalized URL are those that its text has. -/
def Url.Normalized (u : Url) : Prop :=
  Url.ofText u.text = .ok u

theorem Url.codec_faithful {u : Url} (h : u.Normalized) : Url.codec.Faithful keys depth u := by
  refine refine_faithful (stringExpecting_faithful _ _) ?_
  rw [Url.read, h]
  rfl

namespace Method

theorem readNames_names (ms : List Method) :
    readNames (ms.map fun m => .text m.name) = .ok ms := by
  induction ms with
  | nil => rfl
  | cons m rest ih =>
    have known : (ofText m.name).mapError Error.message = .ok m := by
      rw [ofText, ofText?_name]
      rfl
    rw [List.map_cons, readNames, known, ih]
    rfl

theorem settledItems?_names {ns : List Node} {ms : List Method}
    (h : List.Forall₂ (fun n m => n.StandsFor (.text m.name)) ns ms) :
    Node.settledItems? ns = some (ms.map fun m => .text m.name) := by
  induction h with
  | nil => rfl
  | cons head _ ih =>
    rw [Node.settledItems?, Node.settled?_of_standsFor_text head, ih]
    rfl

theorem namesCodec_faithful (ms : List Method) : namesCodec.Faithful keys (depth + 1) ms where
  written := by
    refine .seq fun n mem => ?_
    obtain ⟨m, -, rfl⟩ := List.mem_map.mp mem
    exact .text m.name
  reads src n stands := by
    obtain ⟨ns, rfl, items⟩ := Node.standsFor_seq_iff.mp stands
    rw [List.forall₂_map_right_iff] at items
    simp only [namesCodec, Node.settled?, settledItems?_names items, Option.map_some, readSettled,
      readNames_names]
    rfl

end Method

theorem ApiKey.codec_faithful (k : ApiKey) : ApiKey.codec.Faithful Yaml.IsName (depth + 2) k :=
  record_faithful _
    (.seq (.map (required_faithful (string_faithful _)) rfl)
      (optional_faithful fun t _ => ⟨Throttle.codec_faithful (by decide) t, nofun⟩) rfl)
    (by decide) (by decide)

theorem BucketConfig.codec_faithful (b : BucketConfig) :
    BucketConfig.codec.Faithful Yaml.IsName (depth + 1) b :=
  record_faithful _
    (.seq (.seq (.map (required_faithful (string_faithful _)) rfl)
      (required_faithful (string_faithful _)) rfl)
      (required_faithful (string_faithful _)) rfl)
    (by decide) (by decide)

theorem ParameterKind.codec_faithful (k : ParameterKind) :
    ParameterKind.codec.Faithful keys depth k :=
  choice_faithful (by cases k <;> decide)

namespace Parameter

theorem Unchecked.codec_faithful (u : Unchecked) :
    (record "struct RawDescriptor" Unchecked.fields).Faithful Yaml.IsName (depth + 1) u :=
  record_faithful _
    (.seq (.seq (.map (required_faithful (ParameterKind.codec_faithful _)) rfl)
      (required_faithful (string_faithful _)) rfl)
      (defaulted_faithful (bool_faithful _)) rfl)
    (by decide) (by decide)

/-- The name was checked when the parameter was made, so it passes the check again. -/
theorem codec_faithful (p : Parameter) : codec.Faithful Yaml.IsName (depth + 1) p := by
  refine refine_faithful (Unchecked.codec_faithful _) ?_
  rw [named_eq_ok p.name_not_blank]
  rfl

end Parameter

theorem RouteConfig.codec_faithful (r : RouteConfig) :
    RouteConfig.codec.Faithful Yaml.IsName (depth + 3) r :=
  record_faithful _
    (.seq (.seq (.seq (.seq (.map (required_faithful (string_faithful _)) rfl)
      (required_faithful (Method.namesCodec_faithful _)) rfl)
      (optional_faithful fun _ _ => ⟨string_faithful _, nofun⟩) rfl)
      (optional_faithful fun b _ => ⟨b.codec_faithful, nofun⟩) rfl)
      (many_faithful fun p _ => p.codec_faithful) rfl)
    (by decide) (by decide)

theorem UpstreamConfig.codec_faithful {u : UpstreamConfig} (h : u.baseUrl.Normalized) :
    UpstreamConfig.codec.Faithful Yaml.IsName (depth + 1) u :=
  record_faithful _
    (.seq (.map (required_faithful (Url.codec_faithful h)) rfl)
      (defaulted_faithful (string_faithful _)) rfl)
    (by decide) (by decide)

theorem Config.codec_faithful {c : Config} (h : c.upstream.baseUrl.Normalized) :
    Config.codec.Faithful Yaml.IsName (depth + 5) c :=
  record_faithful _
    (.seq (.seq (.seq (.seq (.seq (.seq (.seq (.map (required_faithful (string_faithful _)) rfl)
      (defaulted_faithful (string_faithful _)) rfl)
      (defaulted_faithful (string_faithful _)) rfl)
      (required_faithful (UpstreamConfig.codec_faithful h)) rfl)
      (defaulted_faithful (bool_faithful _)) rfl)
      (optional_faithful fun _ _ => ⟨string_faithful _, nofun⟩) rfl)
      (many_faithful fun k _ => k.codec_faithful) rfl)
      (defaulted_faithful (list_faithful fun r _ => r.codec_faithful)) rfl)
    (by decide) (by decide)

end GatewayPlan
