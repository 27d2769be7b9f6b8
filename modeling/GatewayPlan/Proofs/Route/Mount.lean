import GatewayPlan.Proofs.Route.Plan
import GatewayPlan.Proofs.Template.Trim

/-!
# Where proxy routes are mounted

The path of a proxy route stands as it is behind its mount: the root without slashes at its end and
with one in front, or nothing if the root has nothing but slashes. Mounts are put together one
behind the other, so it makes no difference in which order nested routes are joined.
-/

namespace GatewayPlan

namespace Template

/-! ### Mounts -/

/-- What stands before the path in a joined path. -/
def mount (root : String) : String :=
  if trimSlashes root = "" then ""
  else if isRooted (trimSlashes root) then trimSlashes root
  else "/" ++ trimSlashes root

theorem join_eq (root path : String) : join root path = mount root ++ path := by
  unfold join mount
  by_cases empty : trimSlashes root = ""
  · simp [empty]
  · by_cases rooted : isRooted (trimSlashes root) = true
    · simp [empty, rooted]
    · simp [empty, rooted]

/-- Nothing, or a path that does not end in a slash. -/
def IsMount (front : String) : Prop :=
  front = "" ∨ isRooted front = true ∧ front.toList.getLast? ≠ some '/'

theorem isRooted_iff {s : String} : isRooted s = true ↔ s.toList.head? = some '/' :=
  decide_eq_true_iff

theorem isRooted_slash (s : String) : isRooted ("/" ++ s) = true := by
  simp [isRooted]

theorem isRooted_append {a : String} (rooted : isRooted a = true) (b : String) :
    isRooted (a ++ b) = true := by
  obtain ⟨rest, chars⟩ := exists_of_isRooted rooted
  apply isRooted_iff.mpr
  rw [String.toList_append, chars]
  rfl

theorem IsMount.isRooted_append {front path : String} (h : IsMount front)
    (rooted : isRooted path = true) : isRooted (front ++ path) = true := by
  rcases h with empty | ⟨own, -⟩
  · simpa [empty] using rooted
  · exact Template.isRooted_append own path

/-- Trimming leaves the front of a text as it is, if anything is left. -/
theorem isRooted_trimSlashes {s : String} (filled : trimSlashes s ≠ "") :
    isRooted (trimSlashes s) = isRooted s := by
  obtain ⟨n, cut⟩ := exists_eq_trimSlashes_append s
  have heads : s.toList.head? = (trimSlashes s).toList.head? := by
    rw [congrArg String.toList cut, String.toList_append,
      List.head?_append_of_ne_nil _ (mt String.toList_eq_nil_iff.mp filled)]
  rw [isRooted, isRooted, heads]

theorem isMount_mount (root : String) : IsMount (mount root) := by
  have ends : (trimSlashes root).toList.getLast? ≠ some '/' := by
    rw [toList_trimSlashes]
    exact getLast?_trimmed root.toList
  unfold mount
  by_cases empty : trimSlashes root = ""
  · simp [empty, IsMount]
  · by_cases rooted : isRooted (trimSlashes root) = true
    · rw [if_neg empty, if_pos rooted]
      exact .inr ⟨rooted, ends⟩
    · rw [if_neg empty, if_neg rooted]
      refine .inr ⟨isRooted_slash _, ?_⟩
      rwa [String.toList_append,
        List.getLast?_append_of_ne_nil _ (mt String.toList_eq_nil_iff.mp empty)]

theorem mount_append_slashes (root : String) (n : Nat) :
    mount (root ++ slashes n) = mount root := by
  have same : trimSlashes (root ++ slashes n) = trimSlashes root := by
    apply String.toList_inj.mp
    rw [toList_trimSlashes, String.toList_append, trimmed_append_of_all, toList_trimSlashes]
    intro c mem
    rw [slashes, String.toList_ofList] at mem
    exact (List.mem_replicate.mp mem).2
  rw [mount, same, mount]

/-- A slash in front is as good as the one that a mount is given. -/
theorem mount_slash {root : String} (unrooted : isRooted root = false) :
    mount ("/" ++ root) = mount root := by
  by_cases empty : root = ""
  · subst empty
    decide +kernel
  · have filled : ¬ ∀ c ∈ root.toList, c = '/' := by
      intro all
      have head := List.head?_eq_some_head (mt String.toList_eq_nil_iff.mp empty)
      rw [all _ (List.head_mem _)] at head
      rw [isRooted_iff.mpr head] at unrooted
      cases unrooted
    have own : trimSlashes root ≠ "" := by
      intro none
      apply filled
      apply trimmed_eq_nil_iff.mp
      rw [← toList_trimSlashes, none]
      rfl
    have behind : trimSlashes ("/" ++ root) = "/" ++ trimSlashes root := by
      apply String.toList_inj.mp
      rw [toList_trimSlashes, String.toList_append, trimmed_append_of_not_all filled,
        String.toList_append, toList_trimSlashes]
    have some : "/" ++ trimSlashes root ≠ "" := by simp
    rw [mount, behind, if_neg some, if_pos (isRooted_slash _), mount, if_neg own,
      isRooted_trimSlashes own, unrooted]
    rfl

theorem mount_eq_trimSlashes {s : String}
    (h : trimSlashes s = "" ∨ isRooted (trimSlashes s) = true) : mount s = trimSlashes s := by
  unfold mount
  rcases h with empty | rooted
  · rw [if_pos empty, empty]
  · by_cases empty : trimSlashes s = ""
    · rw [if_pos empty, empty]
    · rw [if_neg empty, if_pos rooted]

theorem IsMount.trimSlashes_append {front : String} (h : IsMount front) (path : String) :
    trimSlashes (front ++ path) = front ++ trimSlashes path := by
  apply String.toList_inj.mp
  rw [toList_trimSlashes, String.toList_append, String.toList_append, toList_trimSlashes]
  by_cases all : ∀ c ∈ path.toList, c = '/'
  · have own : trimmed front.toList = front.toList := by
      rcases h with empty | ⟨-, ends⟩
      · rw [empty]
        rfl
      · apply List.rdropWhile_eq_self_iff.mpr
        intro filled slash
        apply ends
        rw [List.getLast?_eq_some_getLast filled, of_decide_eq_true slash]
    rw [trimmed_append_of_all all, trimmed_eq_nil_iff.mpr all, own, List.append_nil]
  · exact trimmed_append_of_not_all all

/-- The mount of a joined path has the mount of its root in front. -/
theorem mount_join (root : String) {path : String} (rooted : isRooted path = true) :
    mount (join root path) = mount root ++ mount path := by
  have front := isMount_mount root
  have cut := front.trimSlashes_append path
  have tail : trimSlashes path = "" ∨ isRooted (trimSlashes path) = true := by
    by_cases empty : trimSlashes path = ""
    · exact .inl empty
    · exact .inr ((isRooted_trimSlashes empty).trans rooted)
  have whole : mount root ++ trimSlashes path = "" ∨
      isRooted (mount root ++ trimSlashes path) = true := by
    rcases tail with empty | own
    · rcases front with none | ⟨own, -⟩
      · exact .inl (by rw [none, empty]; rfl)
      · exact .inr (isRooted_append own _)
    · exact .inr (front.isRooted_append own)
  rw [join_eq, mount_eq_trimSlashes (cut ▸ whole), cut, mount_eq_trimSlashes tail]

theorem join_join (root : String) {path : String} (rooted : isRooted path = true)
    (nested : String) : join (join root path) nested = join root (join path nested) := by
  calc join (join root path) nested
      = mount root ++ mount path ++ nested := by rw [join_eq, mount_join root rooted]
    _ = mount root ++ join path nested := by rw [join_eq path, String.append_assoc]
    _ = join root (join path nested) := (join_eq root _).symm

/-! ### Placeholders -/

theorem segments_slash (s : String) : segments ("/" ++ s) = segments s := by
  have chars : ("/" ++ s).toList = '/' :: s.toList := by simp
  rw [segments, chars, pieces, if_pos rfl, segments]
  rfl

theorem segments_mount (root : String) : segments (mount root) = segments root := by
  rw [← segments_trimSlashes root, mount]
  by_cases empty : trimSlashes root = ""
  · rw [if_pos empty, empty]
  · by_cases rooted : isRooted (trimSlashes root) = true
    · rw [if_neg empty, if_pos rooted]
    · rw [if_neg empty, if_neg rooted, segments_slash]

theorem pathParameters_join_eq_ok_iff (root : String) {path : String}
    (rooted : isRooted path = true) {ps : List Parameter} :
    pathParameters (join root path) = .ok ps ↔ ∃ front back, pathParameters root = .ok front ∧
      pathParameters path = .ok back ∧ ps = front ++ back := by
  rw [join_eq, pathParameters_append_eq_ok_iff _ rooted]
  simp only [pathParameters_congr (segments_mount root)]

end Template

namespace Route

open Template

/-- The resource path of a proxy route is its own path behind the mount of the root, with a slash in
front and none doubled between the two. Slashes at the end of the root and a missing one before it
make no difference. A route may be mounted under another in any order, and the joined path has the
placeholders of the root and then those of the route. -/
theorem plan_proxy_mounted (root path : String) (rooted : isRooted path = true) :
    (∀ s r parameters p, s.proxyRoot = root → r.path = path → r.target = .proxy parameters →
      (plan s r).result = .ok p → p.resourcePath = join root path) ∧
    (isRooted (join root path) = true ∧
      ∃ front, join root path = front ++ path ∧ IsMount front) ∧
    (∀ n, join (root ++ slashes n) path = join root path) ∧
    (isRooted root = false → join ("/" ++ root) path = join root path) ∧
    (∀ nested, join (join root path) nested = join root (join path nested)) ∧
    ∀ ps, pathParameters (join root path) = .ok ps ↔ ∃ front back,
      pathParameters root = .ok front ∧ pathParameters path = .ok back ∧ ps = front ++ back := by
  refine ⟨?_, ⟨?_, mount root, join_eq root path, isMount_mount root⟩, ?_, ?_,
    join_join root rooted, fun _ => pathParameters_join_eq_ok_iff root rooted⟩
  · intro s r parameters p under own proxy plans
    obtain ⟨-, planned⟩ := plan_result_eq_ok_iff.mp plans
    rw [proxy] at planned
    cases planned with
    | proxy _ _ _ =>
      subst under
      subst own
      rfl
  · rw [join_eq]
    exact (isMount_mount root).isRooted_append rooted
  · intro n
    rw [join_eq, mount_append_slashes, join_eq]
  · intro unrooted
    rw [join_eq, mount_slash unrooted, join_eq]

theorem plan_proxy_mounted_tenant :
    let root := "\x7btenant\x7d//"
    let path := "/orders/\x7bid\x7d"
    let u : Url := ⟨"https", some ⟨"", none, .domain "x.example.com", none⟩, .segments [""],
      none, none⟩
    let s : Settings := ⟨root, u, .apiKey "k", false, false⟩
    let r : Route := ⟨path, .get, .proxy []⟩
    let p := proxyPlan s r [⟨.path, "id", true, rfl⟩]
    isRooted path = true ∧ (plan s r).result = .ok p ∧ p.resourcePath = join root path ∧
      join root path = "/\x7btenant\x7d/orders/\x7bid\x7d" ∧
      (∃ front, join root path = front ++ path ∧ IsMount front) ∧
      join ("/" ++ root) path = join root path ∧
      join (join root path) "/lines" = join root (join path "/lines") ∧
      ∀ ps, pathParameters (join root path) = .ok ps ↔ ∃ front back,
        pathParameters root = .ok front ∧ pathParameters path = .ok back ∧ ps = front ++ back := by
  intro root path u s r p
  have rooted : isRooted path = true := by decide +kernel
  have unrooted : isRooted root = false := by decide +kernel
  have plans : (plan s r).result = .ok p := by decide +kernel
  obtain ⟨resource, ⟨-, before⟩, -, missing, nested, placeholders⟩ :=
    plan_proxy_mounted root path rooted
  exact ⟨rooted, plans, resource s r [] p rfl rfl rfl plans, by decide +kernel, before,
    missing unrooted, nested "/lines", placeholders⟩

end Route

end GatewayPlan
