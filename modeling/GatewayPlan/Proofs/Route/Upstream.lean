import GatewayPlan.Proofs.Route.Plan
import GatewayPlan.Proofs.Url.Appended

/-!
# Where proxy routes lead

A proxy route leads to the address that the text of the upstream URL and its own path make together.
The path of that address is the URL's with the route's behind it if the URL ends with its path.
-/

namespace GatewayPlan.Route

/-- The address of a planned proxy route is the text of the upstream URL without slashes at its end,
followed by the path of the route. -/
theorem plan_proxy_address {s : Settings} {r : Route} {parameters : List Parameter}
    {given : String} {p : MethodPlan} (read : Url.ofText given = .ok s.upstream)
    (proxy : r.target = .proxy parameters) (plans : (plan s r).result = .ok p) :
    ∃ h base, p.integration = .http h ∧ s.upstream.Continues base r.path h.uri := by
  obtain ⟨rooted, planned⟩ := plan_result_eq_ok_iff.mp plans
  rw [proxy] at planned
  cases planned with
  | proxy _ _ _ => exact ⟨_, _, rfl, (Url.sound_ofText read).continues rooted⟩

theorem plan_proxy_address_orders :
    let u : Url := ⟨"https", some ⟨"", none, .domain "x.example.com", none⟩,
      .segments ["v1", ""], none, none⟩
    let s : Settings := ⟨"/api", u, .apiKey "k", false, false⟩
    let r : Route := ⟨"/orders/\x7bid\x7d", .get, .proxy []⟩
    let p := proxyPlan s r [⟨.path, "id", true, rfl⟩]
    Url.ofText "https://x.example.com/v1/" = .ok s.upstream ∧ r.target = .proxy [] ∧
      (plan s r).result = .ok p ∧
      ∃ h base, p.integration = .http h ∧ s.upstream.Continues base r.path h.uri := by
  intro u s r p
  have read : Url.ofText "https://x.example.com/v1/" = .ok u := by decide +kernel
  have plans : (plan s r).result = .ok p := by decide +kernel
  exact ⟨read, rfl, plans, plan_proxy_address read rfl plans⟩

/-- A path can end up in the query of the upstream URL, it can name a host if the URL has none, and
it can end in a query of its own. -/
theorem plan_proxy_address_astray :
    let queried : Url := ⟨"https", some ⟨"", none, .domain "x.example.com", none⟩, .segments [""],
      some "v=1", none⟩
    let hostless : Url := ⟨"file", some ⟨"", none, .domain "", none⟩, .segments [""], none, none⟩
    let plain : Url := { queried with query := none }
    let settings (u : Url) : Settings := ⟨"/api", u, .apiKey "k", false, false⟩
    let leads (u : Url) (path address authority own : String) := ∃ p h,
      (plan (settings u) ⟨path, .get, .proxy []⟩).result = .ok p ∧ p.integration = .http h ∧
        h.uri = address ∧ Url.authorityIn address = authority ∧ Url.pathIn address = own
    (Url.ofText "https://x.example.com/?v=1" = .ok queried ∧ Url.ofText "file:///" = .ok hostless ∧
      Url.ofText "https://x.example.com" = .ok plain) ∧
    Template.trimSlashes queried.text = "https://x.example.com/?v=1" ∧
    leads queried "/orders" "https://x.example.com/?v=1/orders" "x.example.com" "/" ∧
    leads hostless "//x/orders" "file://x/orders" "x" "/orders" ∧
    leads plain "/orders?v=1" "https://x.example.com/orders?v=1" "x.example.com" "/orders" := by
  intro queried hostless plain settings leads
  let found (u : Url) (path : String) := proxyPlan (settings u) ⟨path, .get, .proxy []⟩ []
  refine ⟨?_, ?_, ⟨found queried "/orders", _, ?_, rfl, ?_⟩,
    ⟨found hostless "//x/orders", _, ?_, rfl, ?_⟩, found plain "/orders?v=1", _, ?_, rfl, ?_⟩
  all_goals decide +kernel

end GatewayPlan.Route
