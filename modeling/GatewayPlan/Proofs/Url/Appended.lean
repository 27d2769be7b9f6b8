import GatewayPlan.Proofs.Template
import GatewayPlan.Proofs.Template.Trim
import GatewayPlan.Proofs.Url.Sound

/-!
# Where a path appended to a URL stands

The text of a URL is cut at its marks: after the scheme two slashes announce an authority, which
ends at the next slash, and the path ends at a question mark or a number sign. A path that is put
behind the text of a URL is the end of its path, if nothing follows the path there and if the slash
it begins with is not taken for one that announces an authority.
-/

namespace GatewayPlan.Url

open Template (trimmed trimSlashes)

/-! ### The parts of a text -/

/-- What follows the scheme, up to the query or the fragment. -/
def hierarchyIn (text : String) : List Char :=
  (cutPath ((text.toList.dropWhile (· ≠ ':')).drop 1)).1

/-- The authority that two slashes announce, and the path, which begins at the next slash. -/
def cutAuthority : List Char → List Char × List Char
  | '/' :: '/' :: rest => (rest.takeWhile (· ≠ '/'), rest.dropWhile (· ≠ '/'))
  | path => ([], path)

/-- The authority of a text in the generic syntax of URLs: a piece of the text as it is written. The
text is not read by `ofText`, so nothing of it is decoded, put in another case or left out. -/
def authorityIn (text : String) : String :=
  String.ofList (cutAuthority (hierarchyIn text)).1

/-- The path of a text in the generic syntax of URLs, with dot segments, backslashes, tabs and what
is or ought to be percent-encoded left as they are written. -/
def pathIn (text : String) : String :=
  String.ofList (cutAuthority (hierarchyIn text)).2

/-- The part of a path before a mark that ends paths. -/
def beforeMark (path : String) : String :=
  String.ofList (cutPath path.toList).1

/-- How a text falls into authority and path. -/
inductive Cut : List Char → List Char → List Char → Prop
  | named {authority path : List Char} : '/' ∉ authority → (∀ c ∈ path.head?, c = '/') →
      Cut ('/' :: '/' :: (authority ++ path)) authority path
  | bare {path : List Char} : ¬ ['/', '/'] <+: path → Cut path [] path

theorem Cut.cutAuthority_eq {hierarchy authority path : List Char}
    (h : Cut hierarchy authority path) : cutAuthority hierarchy = (authority, path) := by
  cases h with
  | named uncut rooted =>
    have before : ∀ c ∈ authority, decide (c ≠ '/') = true := fun c mem =>
      decide_eq_true fun slash => uncut (slash ▸ mem)
    rw [cutAuthority, List.takeWhile_append_of_pos before, List.dropWhile_append_of_pos before]
    cases path with
    | nil => simp
    | cons c rest =>
      obtain rfl := rooted c rfl
      simp
  | bare unannounced =>
    unfold cutAuthority
    split
    · exact absurd (List.prefix_append ['/', '/'] _) unannounced
    · rfl

theorem Cut.authorityIn_eq {text : String} {authority path : List Char}
    (h : Cut (hierarchyIn text) authority path) : authorityIn text = String.ofList authority := by
  rw [authorityIn, h.cutAuthority_eq]

theorem Cut.pathIn_eq {text : String} {authority path : List Char}
    (h : Cut (hierarchyIn text) authority path) : pathIn text = String.ofList path := by
  rw [pathIn, h.cutAuthority_eq]

/-- A rooted path put behind what is left of a text after trimming is the end of the text's own
path. -/
theorem Cut.append {hierarchy authority path : List Char} (h : Cut hierarchy authority path)
    {rest : List Char} (kept : trimmed hierarchy ≠ [] ∨ ¬ ['/', '/'] <+: '/' :: rest) :
    Cut (trimmed hierarchy ++ '/' :: rest) authority (trimmed path ++ '/' :: rest) := by
  cases h with
  | named uncut rooted =>
    have shape : '/' :: '/' :: (authority ++ path) = ['/', '/'] ++ (authority ++ path) := rfl
    by_cases all : ∀ c ∈ authority ++ path, c = '/'
    · obtain ⟨inHost, inPath⟩ := List.forall_mem_append.mp all
      have noHost : authority = [] := List.eq_nil_iff_forall_not_mem.mpr fun c mem =>
        uncut (inHost c mem ▸ mem)
      have nothing : trimmed ('/' :: '/' :: (authority ++ path)) = [] :=
        Template.trimmed_eq_nil_iff.mpr
          (List.forall_mem_cons.mpr ⟨rfl, List.forall_mem_cons.mpr ⟨rfl, all⟩⟩)
      rw [nothing, Template.trimmed_eq_nil_iff.mpr inPath, noHost]
      exact .bare (kept.resolve_left (not_not.mpr nothing))
    · rw [shape, Template.trimmed_append_of_not_all all,
        Template.trimmed_append_of_notMem uncut, List.append_assoc, List.append_assoc]
      refine .named uncut fun c first => ?_
      cases own : trimmed path with
      | nil =>
        rw [own] at first
        exact (Option.some.inj first).symm
      | cons d more =>
        obtain ⟨behind, whole⟩ := Template.trimmed_prefix path
        rw [own] at first whole
        obtain rfl : d = c := Option.some.inj first
        exact rooted d (whole ▸ rfl)
  | bare unannounced =>
    refine .bare fun announced => ?_
    rcases List.prefix_or_prefix_of_prefix announced
      (List.prefix_append (trimmed hierarchy) ('/' :: rest)) with inside | short
    · exact unannounced (inside.trans (Template.trimmed_prefix hierarchy))
    · have slashes : ∀ c ∈ trimmed hierarchy, c = '/' := fun c mem => by
        simpa using short.subset mem
      have nothing : trimmed hierarchy = [] := by
        rw [← Template.trimmed_trimmed, Template.trimmed_eq_nil_iff.mpr slashes]
      rw [nothing] at announced
      exact kept.elim (fun filled => filled nothing) fun alone => alone announced

/-! ### The parts of a URL -/

/-- The authority as it stands in the text, without the slashes that announce it. -/
def authorityText (u : Url) : String :=
  match u.authority with
  | some a => a.bare
  | none => ""

/-- The path as it stands in the text. -/
def pathText (u : Url) : String :=
  u.pathGuard ++ u.path.text

def hierarchy (u : Url) : List Char :=
  (match u.authority with
    | some a => a.text.toList
    | none => []) ++ u.pathText.toList

/-- Query and fragment as they stand in the text. -/
def marked (u : Url) : List Char :=
  (match u.query with
    | some q => '?' :: q.toList
    | none => []) ++
  match u.fragment with
    | some f => '#' :: f.toList
    | none => []

def EndsWithPath (u : Url) : Prop :=
  u.query = none ∧ u.fragment = none

theorem toList_text (u : Url) :
    u.text.toList = u.scheme.toList ++ ':' :: (u.hierarchy ++ u.marked) := by
  rcases u with ⟨scheme, authority, path, query, fragment⟩
  unfold text hierarchy pathText marked
  cases authority <;> cases query <;> cases fragment <;> simp

theorem marked_of_endsWithPath {u : Url} (h : u.EndsWithPath) : u.marked = [] := by
  rw [marked, h.1, h.2]
  rfl

theorem exists_mark {u : Url} (h : ¬ u.EndsWithPath) :
    ∃ mark rest, u.marked = mark :: rest ∧ endsPath mark = true := by
  unfold marked
  cases query : u.query with
  | some q => exact ⟨'?', _, rfl, rfl⟩
  | none =>
    cases fragment : u.fragment with
    | some f => exact ⟨'#', _, rfl, rfl⟩
    | none => exact absurd ⟨query, fragment⟩ h

theorem toList_text_segments (names : List String) :
    (UrlPath.segments names).text.toList = names.flatMap fun name => '/' :: name.toList := by
  have from_ : ∀ text : String, (names.foldl (fun text name => text ++ "/" ++ name) text).toList =
      text.toList ++ names.flatMap fun name => '/' :: name.toList := by
    induction names with
    | nil => simp
    | cons name rest ih =>
      intro text
      rw [List.foldl_cons, ih]
      simp
  exact from_ ""

theorem SoundPath.unended {path : UrlPath} (h : SoundPath path) : Unended path.text.toList := by
  cases h with
  | whole unended _ => exact unended
  | segments clear =>
    rw [toList_text_segments]
    intro c mem
    obtain ⟨name, own, mem⟩ := List.mem_flatMap.mp mem
    rcases List.mem_cons.mp mem with rfl | mem
    · rfl
    · exact (clear name own).unended c mem

theorem unended_pathGuard (u : Url) : Unended u.pathGuard.toList := by
  unfold pathGuard
  split
  · exact List.forall_mem_cons.mpr ⟨rfl, List.forall_mem_singleton.mpr rfl⟩
  · exact nofun

theorem Sound.unended_pathText {u : Url} (h : u.Sound) : Unended u.pathText.toList := by
  rw [pathText, String.toList_append]
  exact List.forall_mem_append.mpr ⟨unended_pathGuard u, h.path.unended⟩

theorem pathGuard_of_authority {u : Url} {a : Authority} (own : u.authority = some a) :
    u.pathGuard = "" := by
  rw [pathGuard, own]

/-- Without an authority no path starts with two slashes. One that would begins with an empty name
and is guarded. -/
theorem Sound.not_announced {u : Url} (h : u.Sound) (none : u.authority = none) :
    ¬ ['/', '/'] <+: u.pathText.toList := by
  rcases u with ⟨scheme, authority, path, query, fragment⟩
  obtain rfl : authority = .none := none
  intro announced
  cases h.path with
  | @whole text _ unrooted =>
    obtain ⟨rest, chars⟩ := announced
    have start : text.toList = '/' :: '/' :: rest := by
      simpa [pathText, pathGuard, UrlPath.text] using chars.symm
    exact unrooted (start ▸ rfl)
  | @segments names clear =>
    rw [pathText, String.toList_append, toList_text_segments] at announced
    rcases names with _ | ⟨name, rest⟩
    · simp [pathGuard] at announced
    cases chars : name.toList with
    | nil =>
      obtain rfl := String.toList_eq_nil_iff.mp chars
      cases rest <;> simp [pathGuard] at announced
    | cons c more =>
      have unguarded :
          pathGuard ⟨scheme, .none, .segments (name :: rest), query, fragment⟩ = "" := by
        unfold pathGuard
        split
        case h_1 cut =>
          cases cut
          cases chars
        case h_2 => rfl
      have slash : c = '/' := by
        rw [unguarded, List.flatMap_cons, chars] at announced
        simpa [eq_comm] using announced
      exact (clear name List.mem_cons_self).slash_notMem (by simp [chars, slash])

theorem Sound.cut {u : Url} (h : u.Sound) :
    Cut u.hierarchy u.authorityText.toList u.pathText.toList := by
  unfold hierarchy authorityText
  cases own : u.authority with
  | none => exact .bare (h.not_announced own)
  | some a =>
    obtain ⟨names, segments⟩ := h.rooted (own ▸ rfl)
    simp only [a.toList_text, List.cons_append]
    refine .named (h.authority a own).clear_bare.slash_notMem fun c first => ?_
    rw [pathText, pathGuard_of_authority own, segments, String.empty_append,
      toList_text_segments] at first
    cases names with
    | nil => cases first
    | cons name rest => exact (Option.some.inj first).symm

theorem Sound.unended_hierarchy {u : Url} (h : u.Sound) : Unended u.hierarchy := by
  unfold hierarchy
  refine List.forall_mem_append.mpr ⟨?_, h.unended_pathText⟩
  cases own : u.authority with
  | none => exact nofun
  | some a =>
    have unended := (h.authority a own).clear_bare.unended
    simp only [a.toList_text]
    exact List.forall_mem_cons.mpr ⟨rfl, List.forall_mem_cons.mpr ⟨rfl, unended⟩⟩

theorem hierarchyIn_eq {text : String} {scheme rest : List Char}
    (chars : text.toList = scheme ++ ':' :: rest) (spelled : ∀ c ∈ scheme, isSchemeChar c = true) :
    hierarchyIn text = (cutPath rest).1 := by
  have before : ∀ c ∈ scheme, decide (c ≠ ':') = true := by
    rintro c mem
    refine decide_eq_true ?_
    rintro rfl
    exact absurd (spelled ':' mem) (by decide)
  rw [hierarchyIn, chars, List.dropWhile_append_of_pos before]
  simp

theorem cutPath_append {front back : List Char} (h : Unended front) :
    (cutPath (front ++ back)).1 = front ++ (cutPath back).1 :=
  List.takeWhile_append_of_pos fun c mem => by simp [h c mem]

theorem cutPath_of_mark {front back : List Char} {mark : Char} (h : Unended front)
    (ends : endsPath mark = true) : (cutPath (front ++ mark :: back)).1 = front := by
  rw [cutPath_append h]
  simp [cutPath, ends]

theorem Sound.hierarchyIn_text {u : Url} (h : u.Sound) : hierarchyIn u.text = u.hierarchy := by
  rw [hierarchyIn_eq u.toList_text h.scheme]
  by_cases ends : u.EndsWithPath
  · rw [marked_of_endsWithPath ends, cutPath_append h.unended_hierarchy]
    exact List.append_nil _
  · obtain ⟨mark, rest, marked, isMark⟩ := exists_mark ends
    rw [marked, cutPath_of_mark h.unended_hierarchy isMark]

/-! ### The text of a URL -/

/-- The path that stands in the text is the path of the URL. -/
theorem Sound.pathIn_text {u : Url} (h : u.Sound) : pathIn u.text = u.pathText := by
  have cut := h.cut
  rw [← h.hierarchyIn_text] at cut
  rw [cut.pathIn_eq, String.ofList_toList]

/-- The authority that stands in the text is the authority of the URL. -/
theorem Sound.authorityIn_text {u : Url} (h : u.Sound) : authorityIn u.text = u.authorityText := by
  have cut := h.cut
  rw [← h.hierarchyIn_text] at cut
  rw [cut.authorityIn_eq, String.ofList_toList]

/-! ### The text of a URL without the slashes at its end -/

theorem toList_trimSlashes_text (u : Url) : (trimSlashes u.text).toList =
    u.scheme.toList ++ ':' :: trimmed (u.hierarchy ++ u.marked) := by
  rw [Template.toList_trimSlashes, u.toList_text, Template.trimmed_append_cons (by decide)]

theorem toList_trimSlashes_text_of_ends {u : Url} (ends : u.EndsWithPath) :
    (trimSlashes u.text).toList = u.scheme.toList ++ ':' :: trimmed u.hierarchy := by
  rw [toList_trimSlashes_text, marked_of_endsWithPath ends, List.append_nil]

theorem exists_toList_trimSlashes_text {u : Url} (h : ¬ u.EndsWithPath) :
    ∃ mark rest, endsPath mark = true ∧
      (trimSlashes u.text).toList = u.scheme.toList ++ ':' :: (u.hierarchy ++ mark :: rest) := by
  obtain ⟨mark, rest, marked, isMark⟩ := exists_mark h
  have noSlash : mark ≠ '/' := by
    rintro rfl
    cases isMark
  refine ⟨mark, trimmed rest, isMark, ?_⟩
  rw [toList_trimSlashes_text, marked, Template.trimmed_append_cons noSlash]

theorem Sound.unended_trimmed {u : Url} (h : u.Sound) : Unended (trimmed u.hierarchy) :=
  fun c mem => h.unended_hierarchy c ((Template.trimmed_prefix _).subset mem)

theorem Sound.unended_trimSlashes_iff {u : Url} (h : u.Sound) :
    Unended (trimSlashes u.text).toList ↔ u.EndsWithPath := by
  constructor
  · intro unended
    by_contra marked
    obtain ⟨mark, rest, isMark, text⟩ := exists_toList_trimSlashes_text marked
    have inText : mark ∈ (trimSlashes u.text).toList := by simp [text]
    exact Bool.false_ne_true ((unended mark inText).symm.trans isMark)
  · intro ends
    rw [toList_trimSlashes_text_of_ends ends]
    have scheme : Clear u.scheme.toList := Clear.of_forall (by decide) h.scheme
    exact List.forall_mem_append.mpr
      ⟨scheme.unended, List.forall_mem_cons.mpr ⟨rfl, h.unended_trimmed⟩⟩

/-! ### A path behind the text -/

theorem Sound.located_append {u : Url} (h : u.Sound) (ends : u.EndsWithPath) {path : String}
    (rooted : Template.isRooted path = true)
    (kept : trimSlashes u.text ≠ u.scheme ++ ":" ∨ ¬ ['/', '/'] <+: path.toList) :
    authorityIn (trimSlashes u.text ++ path) = u.authorityText ∧
      pathIn (trimSlashes u.text ++ path) = trimSlashes u.pathText ++ beforeMark path := by
  obtain ⟨rest, chars⟩ := Template.exists_of_isRooted rooted
  have text := toList_trimSlashes_text_of_ends ends
  have before : (cutPath path.toList).1 = '/' :: (cutPath rest).1 := by
    rw [chars]
    rfl
  have hierarchy : hierarchyIn (trimSlashes u.text ++ path) =
      trimmed u.hierarchy ++ '/' :: (cutPath rest).1 := by
    have whole : (trimSlashes u.text ++ path).toList =
        u.scheme.toList ++ ':' :: (trimmed u.hierarchy ++ path.toList) := by
      rw [String.toList_append, text, List.append_assoc, List.cons_append]
    rw [hierarchyIn_eq whole h.scheme, cutPath_append h.unended_trimmed, before]
  have kept : trimmed u.hierarchy ≠ [] ∨ ¬ ['/', '/'] <+: '/' :: (cutPath rest).1 := by
    refine kept.imp (fun filled nothing => filled (String.toList_inj.mp ?_))
      fun alone announced => alone (announced.trans ?_)
    · rw [text, nothing, String.toList_append]
      rfl
    · rw [← before]
      exact List.takeWhile_prefix _
  have joined := h.cut.append kept
  rw [← hierarchy] at joined
  rw [joined.authorityIn_eq, joined.pathIn_eq]
  refine ⟨String.ofList_toList, String.toList_inj.mp ?_⟩
  simp only [beforeMark, before, Template.toList_trimSlashes, String.toList_append,
    String.toList_ofList]

theorem Sound.located_append_of_marked {u : Url} (h : u.Sound) (marked : ¬ u.EndsWithPath)
    (path : String) : authorityIn (trimSlashes u.text ++ path) = u.authorityText ∧
      pathIn (trimSlashes u.text ++ path) = u.pathText := by
  obtain ⟨mark, rest, isMark, text⟩ := exists_toList_trimSlashes_text marked
  have whole : (trimSlashes u.text ++ path).toList =
      u.scheme.toList ++ ':' :: (u.hierarchy ++ mark :: (rest ++ path.toList)) := by
    rw [String.toList_append, text]
    simp
  have same : hierarchyIn (trimSlashes u.text ++ path) = hierarchyIn u.text := by
    rw [hierarchyIn_eq whole h.scheme, cutPath_of_mark h.unended_hierarchy isMark,
      h.hierarchyIn_text]
  rw [authorityIn, pathIn, same, ← authorityIn, ← pathIn]
  exact ⟨h.authorityIn_text, h.pathIn_text⟩

/-- An address made of a URL as base and a path behind it. Its authority and its path are those in
its text, in the generic syntax of `authorityIn` and `pathIn`, beside the parts of the URL as they
stand in the URL's own text: the address is not read as a URL again. -/
structure Continues (u : Url) (base path address : String) : Prop where
  address_eq : address = base ++ path
  /-- What the base lacks of the URL's text is slashes, and it lacks all of them. -/
  text_eq : ∃ n, u.text = base ++ Template.slashes n
  trimmed : base.toList.getLast? ≠ some '/'
  unmarked_iff : '?' ∉ base.toList ∧ '#' ∉ base.toList ↔ u.EndsWithPath
  /-- The path goes on with the new one, unless nothing is left of the base but its scheme and the
  new path announces an authority. -/
  within : u.EndsWithPath → base ≠ u.scheme ++ ":" ∨ ¬ ['/', '/'] <+: path.toList →
    authorityIn address = u.authorityText ∧
      pathIn address = trimSlashes u.pathText ++ beforeMark path
  /-- Behind a query or a fragment nothing is added to the path. -/
  behind : ¬ u.EndsWithPath → authorityIn address = u.authorityText ∧ pathIn address = u.pathText
  authorityIn_text : authorityIn u.text = u.authorityText
  pathIn_text : pathIn u.text = u.pathText

theorem unended_iff {cs : List Char} : Unended cs ↔ '?' ∉ cs ∧ '#' ∉ cs := by
  unfold Unended
  simp only [endsPath_eq_false_iff, forall_and, List.forall_mem_ne']

theorem Sound.continues {u : Url} (h : u.Sound) {path : String}
    (rooted : Template.isRooted path = true) :
    u.Continues (trimSlashes u.text) path (trimSlashes u.text ++ path) where
  address_eq := rfl
  text_eq := Template.exists_eq_trimSlashes_append u.text
  trimmed := by
    rw [Template.toList_trimSlashes]
    exact Template.getLast?_trimmed _
  unmarked_iff := unended_iff.symm.trans h.unended_trimSlashes_iff
  within ends kept := h.located_append ends rooted kept
  behind marked := h.located_append_of_marked marked path
  authorityIn_text := h.authorityIn_text
  pathIn_text := h.pathIn_text

end GatewayPlan.Url
