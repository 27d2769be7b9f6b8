import GatewayPlan.ConfigFile
import GatewayPlan.Proofs.Codec.Config
import GatewayPlan.Proofs.Json.Document
import GatewayPlan.Proofs.Yaml.Text

/-!
# Saved configurations are loaded as they were

The name of a file decides the format for both ways, and in either format what is written of a
configuration is read back.
-/

namespace GatewayPlan

open GatewayPlan.Tree

theorem fromUTF8?_toUTF8 (s : String) : String.fromUTF8? s.toUTF8 = some s :=
  dif_pos s.isValidUTF8

namespace Config

variable {c : Config}

theorem ofText_text (url : c.upstream.baseUrl.Normalized) (format : FileFormat) :
    ofText format (c.text format) = .ok c := by
  cases format with
  | json =>
    have faithful : codec.Faithful Yaml.IsName 5 c := codec_faithful url
    rw [ofText, text, Json.decode_block faithful (by decide)]
    rfl
  | yaml =>
    have faithful : codec.Faithful Yaml.IsName Yaml.Document.depthLimit c := codec_faithful url
    rw [ofText, text, Yaml.decode_text faithful rfl]
    rfl

/-- A configuration that was saved is loaded with every field as it was, whether or not it can be
planned. So it is planned as before, and saved again as the same text. -/
theorem ofFile_fileText (url : c.upstream.baseUrl.Normalized) (path : String) :
    (∀ src, codec.decode src (codec.encode c) = .ok c) ∧
      ofFile path (.ok (c.fileText path).toUTF8) = .ok c ∧
      ∀ key, (ofFile path (.ok (c.fileText path).toUTF8)).map
        (fun loaded => (loaded.plan key, loaded.fileText path)) =
          .ok (c.plan key, c.fileText path) := by
  have faithful : codec.Faithful Yaml.IsName 5 c := codec_faithful url
  have loaded : ofFile path (.ok (c.fileText path).toUTF8) = .ok c := by
    have text : String.fromUTF8? (c.fileText path).toUTF8 = some (c.fileText path) :=
      fromUTF8?_toUTF8 _
    refine Except.bind_eq_ok_iff.mpr ⟨_, rfl, ?_⟩
    simp only [text]
    exact ofText_text url _
  exact ⟨faithful.decode_encode, loaded, fun key => by rw [loaded]; rfl⟩

/-- A route that cannot be planned, since it says neither methods nor which of two targets it has.
-/
def undecided : Config where
  name := "orders"
  stage := "prod"
  proxyRoot := ""
  upstream := ⟨⟨"https", some ⟨"", none, .domain "orders.test", none⟩, .segments ["v1", ""], none,
    none⟩, ""⟩
  authorizer := true
  corsAllowOrigin := some "null"
  apiKeys := [⟨"web", some ⟨5, 10⟩⟩, ⟨"", none⟩]
  routes := [⟨"orders: #1\n", [], some "", some ⟨"b", "k", "r"⟩, [.principal, .permissions]⟩]

theorem ofFile_fileText_undecided : undecided.upstream.baseUrl.Normalized ∧
    ofFile "orders.yml" (.ok (undecided.fileText "orders.yml").toUTF8) = .ok undecided := by
  have url : undecided.upstream.baseUrl.Normalized := by
    unfold Url.Normalized
    decide +kernel
  exact ⟨url, (ofFile_fileText url "orders.yml").2.1⟩

end Config

end GatewayPlan
