import GatewayPlan.Parameter.Catalog
import GatewayPlan.Proofs.Mapping.Distinct
import Mathlib.Order.Fin.Basic

/-!
# The clash that is blamed

A list that does not compile is blamed for one clash: the first parameter whose key on the method
request was taken by an earlier one, or else the first one for which this holds on the integration
request, or else the first one that hits the literal header. A scan for a taken key knows just the
keys of the part behind it, each with the one parameter that has it.
-/

namespace GatewayPlan.Mapping

open Parameter

variable {key? : Parameter → Option String} {ps : List Parameter} {p owner : Parameter}
  {key : String}

/-! ### Taken keys -/

/-- The parameter at a position has the key of an earlier one. -/
def Taken (key? : Parameter → Option String) (ps : List Parameter) (j : Fin ps.length) : Prop :=
  ∃ i < j, ∃ key, key? (ps.get i) = some key ∧ key? (ps.get j) = some key

/-- `j` is the first position whose key was taken, and `i` is the one earlier position with it. -/
structure FirstTaken (key? : Parameter → Option String) (ps : List Parameter)
    (i j : Fin ps.length) (key : String) : Prop where
  earlier : i < j
  owned : key? (ps.get i) = some key
  taken : key? (ps.get j) = some key
  least : ∀ k < j, ¬ Taken key? ps k
  only : ∀ k < j, key? (ps.get k) = some key → k = i

theorem nodup_keys_iff (key? : Parameter → Option String) (ps : List Parameter) :
    (ps.filterMap key?).Nodup ↔ ∀ j, ¬ Taken key? ps j := by
  rw [List.Nodup, List.pairwise_filterMap, List.pairwise_iff_getElem]
  constructor
  · intro apart j taken
    obtain ⟨i, earlier, key, owned, own⟩ := taken
    exact apart i j i.isLt j.isLt earlier key owned key own rfl
  · intro untaken i j hi hj earlier a own b other same
    subst same
    exact untaken ⟨j, hj⟩ ⟨⟨i, hi⟩, earlier, a, own, other⟩

/-- Before the first taken key no two positions share one, so the owner of a key is told by it. -/
theorem eq_of_untaken {i j k : Fin ps.length} (least : ∀ k < j, ¬ Taken key? ps k)
    (hi : i < j) (hk : k < j) (owned : key? (ps.get i) = some key)
    (own : key? (ps.get k) = some key) : k = i := by
  rcases lt_trichotomy k i with before | same | behind
  · exact absurd ⟨k, before, key, own, owned⟩ (least i hi)
  · exact same
  · exact absurd ⟨i, behind, key, owned, own⟩ (least k hk)

theorem FirstTaken.isTaken {i j : Fin ps.length} (first : FirstTaken key? ps i j key) :
    Taken key? ps j :=
  ⟨i, first.earlier, key, first.owned, first.taken⟩

theorem FirstTaken.unique {i j i' j' : Fin ps.length} {key' : String}
    (first : FirstTaken key? ps i j key) (other : FirstTaken key? ps i' j' key') :
    i = i' ∧ j = j' ∧ key = key' := by
  have position : j = j' := by
    rcases lt_trichotomy j j' with before | same | behind
    · exact absurd first.isTaken (other.least j before)
    · exact same
    · exact absurd other.isTaken (first.least j' behind)
  subst position
  have keys : key = key' := Option.some.inj (first.taken.symm.trans other.taken)
  subst keys
  exact ⟨other.only i first.earlier first.owned, rfl, rfl⟩

/-! ### The scan -/

/-- What is known of the keys of a part that was scanned, the last one first. -/
def ownersOf (key? : Parameter → Option String) (front : List Parameter) :
    List (String × Parameter) :=
  (front.filterMap fun p => (key? p).map (·, p)).reverse

theorem ownersOf_concat_none (front : List Parameter) (own : key? p = none) :
    ownersOf key? (front ++ [p]) = ownersOf key? front := by
  simp [ownersOf, own]

theorem ownersOf_concat_some (front : List Parameter) (own : key? p = some key) :
    ownersOf key? (front ++ [p]) = (key, p) :: ownersOf key? front := by
  simp [ownersOf, own]

theorem keys_ownersOf (key? : Parameter → Option String) (front : List Parameter) :
    (ownersOf key? front).map Prod.fst = (front.filterMap key?).reverse := by
  rw [ownersOf, List.map_reverse, List.map_filterMap]
  simp only [Option.map_map, Function.comp_def, Option.map_id']

theorem mem_of_lookup_ownersOf {front : List Parameter}
    (found : (ownersOf key? front).lookup key = some owner) :
    owner ∈ front ∧ key? owner = some key := by
  obtain ⟨before, after, cut, -⟩ := List.lookup_eq_some_iff.mp found
  have mem : (key, owner) ∈ ownersOf key? front := by simp [cut]
  obtain ⟨q, hq, own⟩ := List.mem_filterMap.mp (List.mem_reverse.mp mem)
  obtain ⟨own, same⟩ := by simpa using own
  exact ⟨same ▸ hq, same ▸ own⟩

/-- Over the rest of a list, `front` is the part already scanned. -/
theorem split_of_firstShared? {front rest : List Parameter}
    (distinct : (front.filterMap key?).Nodup)
    (found : firstShared? key? (ownersOf key? front) rest = some (p, owner, key)) :
    ∃ before after, front ++ rest = before ++ p :: after ∧ (before.filterMap key?).Nodup ∧
      owner ∈ before ∧ key? owner = some key ∧ key? p = some key := by
  induction rest generalizing front with
  | nil => cases found
  | cons q rest ih =>
    have next : front ++ q :: rest = (front ++ [q]) ++ rest := by simp
    cases own : key? q with
    | none =>
      simp only [firstShared?, own, ← ownersOf_concat_none front own] at found
      rw [next]
      apply ih _ found
      simpa [own] using distinct
    | some k =>
      cases known : (ownersOf key? front).lookup k with
      | some first =>
        simp only [firstShared?, own, known, Option.some.injEq, Prod.mk.injEq] at found
        obtain ⟨rfl, rfl, rfl⟩ := found
        obtain ⟨mem, owned⟩ := mem_of_lookup_ownersOf known
        exact ⟨front, rest, rfl, distinct, mem, owned, own⟩
      | none =>
        simp only [firstShared?, own, known, ← ownersOf_concat_some front own] at found
        rw [next]
        apply ih _ found
        have fresh := Keyed.lookup_eq_none_iff_notMem.mp known
        rw [keys_ownersOf, List.mem_reverse] at fresh
        rw [List.filterMap_append, List.filterMap_cons_some own]
        exact List.nodup_append_comm.mp (List.nodup_cons.mpr ⟨fresh, distinct⟩)

theorem get_front {before rest : List Parameter} (k : Fin (before ++ rest).length)
    (inside : k < before.length) : (before ++ rest).get k = before.get ⟨k, inside⟩ :=
  List.getElem_append_left inside

theorem untaken_front {before rest : List Parameter} (distinct : (before.filterMap key?).Nodup)
    (k : Fin (before ++ rest).length) (inside : k < before.length) :
    ¬ Taken key? (before ++ rest) k := by
  intro taken
  obtain ⟨i, earlier, key, owned, own⟩ := taken
  have front : i < before.length := Nat.lt_trans earlier inside
  rw [get_front i front] at owned
  rw [get_front k inside] at own
  exact (nodup_keys_iff key? before).mp distinct ⟨k, inside⟩ ⟨⟨i, front⟩, earlier, key, owned, own⟩

theorem exists_firstTaken_of_split {before after : List Parameter}
    (cut : ps = before ++ p :: after) (distinct : (before.filterMap key?).Nodup)
    (mem : owner ∈ before) (owned : key? owner = some key) (taken : key? p = some key) :
    ∃ i j, FirstTaken key? ps i j key ∧ ps.get j = p ∧ ps.get i = owner := by
  subst cut
  have length : before.length < (before ++ p :: after).length := by simp
  obtain ⟨n, rfl⟩ := List.mem_iff_get.mp mem
  let i : Fin (before ++ p :: after).length := ⟨n, Nat.lt_trans n.isLt length⟩
  let j : Fin (before ++ p :: after).length := ⟨before.length, length⟩
  have first : (before ++ p :: after).get i = before.get n := get_front i n.isLt
  have last : (before ++ p :: after).get j = p := by simp [j]
  have least : ∀ k < j, ¬ Taken key? (before ++ p :: after) k := fun k => untaken_front distinct k
  rw [← first] at owned
  rw [← last] at taken
  refine ⟨i, j, ⟨n.isLt, owned, taken, least, ?_⟩, last, first⟩
  intro k hk own
  exact eq_of_untaken least n.isLt hk owned own

/-- The scan stops at the first taken key, and names the one parameter that took it. -/
theorem firstShared?_eq_some_iff : firstShared? key? [] ps = some (p, owner, key) ↔
    ∃ i j, FirstTaken key? ps i j key ∧ ps.get j = p ∧ ps.get i = owner := by
  have sound : ∀ {p owner key}, firstShared? key? [] ps = some (p, owner, key) →
      ∃ i j, FirstTaken key? ps i j key ∧ ps.get j = p ∧ ps.get i = owner := by
    intro p owner key found
    have start : (List.filterMap key? []).Nodup := .nil
    obtain ⟨before, after, cut, distinct, mem, owned, taken⟩ := split_of_firstShared? start found
    exact exists_firstTaken_of_split cut distinct mem owned taken
  constructor
  · exact sound
  · intro taken
    obtain ⟨i, j, first, rfl, rfl⟩ := taken
    cases found : firstShared? key? [] ps with
    | none =>
      have untaken := (nodup_keys_iff key? ps).mp ((firstShared?_nil_eq_none_iff key? ps).mp found)
      exact absurd first.isTaken (untaken j)
    | some clash =>
      obtain ⟨i', j', other, hp, howner⟩ := sound found
      obtain ⟨rfl, rfl, rfl⟩ := first.unique other
      rw [hp, howner]

theorem firstShared?_eq_none_iff_untaken :
    firstShared? key? [] ps = none ↔ ∀ j, ¬ Taken key? ps j :=
  (firstShared?_nil_eq_none_iff key? ps).trans (nodup_keys_iff key? ps)

/-! ### Blame -/

/-- The reference of a parameter on a request, as references are compared there. -/
def comparedKey? : Side → Parameter → Option String
  | .method, p =>
    if p.isContext then none else some (p.declaredPlace.folded.reference methodRequest)
  | .integration, p => some (p.targetPlace.folded.reference integrationRequest)

/-- What a list is blamed for. An earlier check that finds something leaves the later ones out. -/
inductive Blamed (ps : List Parameter) (literal : Option LiteralHeader) : String → Prop
  | declared {i j : Fin ps.length} {key : String} :
      FirstTaken (comparedKey? .method) ps i j key →
      Blamed ps literal
        ((ps.get j).label ++ " and " ++ (ps.get i).label ++ " both map to method request key " ++
          key)
  | written {i j : Fin ps.length} {key : String} : (∀ k, ¬ Taken (comparedKey? .method) ps k) →
      FirstTaken (comparedKey? .integration) ps i j key →
      Blamed ps literal
        ((ps.get j).label ++ " and " ++ (ps.get i).label ++
          " both map to integration request key " ++ key)
  | literal {i : Fin ps.length} {l : LiteralHeader} : (∀ k, ¬ Taken (comparedKey? .method) ps k) →
      (∀ k, ¬ Taken (comparedKey? .integration) ps k) → l ∈ literal →
      (ps.get i).Hits l → (∀ k < i, ¬ (ps.get k).Hits l) →
      Blamed ps literal ((ps.get i).label ++ " maps to the literal header " ++ l.header)

theorem clash?_eq (ps : List Parameter) (literal : Option LiteralHeader) :
    clash? ps literal = match firstShared? (comparedKey? .method) [] ps with
      | some (p, owner, key) => some (.shared p owner .method key)
      | none => match firstShared? (comparedKey? .integration) [] ps with
        | some (p, owner, key) => some (.shared p owner .integration key)
        | none => literal.bind fun l => (ps.find? (hitsLiteral l)).map (.literal · l.header) := by
  have declared : comparableDeclared? = comparedKey? .method := funext comparableDeclared?_eq
  have target : (fun p => some (comparableTarget p)) = comparedKey? .integration :=
    funext fun p => congrArg some (comparableTarget_eq p)
  rw [← declared, ← target]
  rfl

theorem find?_hitsLiteral_eq_some_iff {l : LiteralHeader} :
    ps.find? (hitsLiteral l) = some p ↔
      ∃ i : Fin ps.length, ps.get i = p ∧ (ps.get i).Hits l ∧ ∀ k < i, ¬ (ps.get k).Hits l := by
  simp only [List.find?_eq_some_iff_getElem, hits_iff]
  constructor
  · rintro ⟨hit, i, hi, rfl, earlier⟩
    refine ⟨⟨i, hi⟩, rfl, hit, ?_⟩
    intro k hk
    simpa using earlier k hk
  · rintro ⟨i, rfl, hit, earlier⟩
    refine ⟨hit, i, i.isLt, rfl, ?_⟩
    intro k hk
    simpa using earlier ⟨k, Nat.lt_trans hk i.isLt⟩ hk

theorem message_shared_method (p owner : Parameter) (key : String) :
    (Clash.shared p owner .method key).message =
      p.label ++ " and " ++ owner.label ++ " both map to method request key " ++ key := by
  simp [Clash.message, Side.label, String.append_assoc]

theorem message_shared_integration (p owner : Parameter) (key : String) :
    (Clash.shared p owner .integration key).message =
      p.label ++ " and " ++ owner.label ++ " both map to integration request key " ++ key := by
  simp [Clash.message, Side.label, String.append_assoc]

/-- The three checks stand one behind the other. -/
theorem blamed_of_clash? {literal : Option LiteralHeader} {clash : Clash}
    (h : clash? ps literal = some clash) : Blamed ps literal clash.message := by
  rw [clash?_eq] at h
  cases method : firstShared? (comparedKey? .method) [] ps with
  | some found =>
    obtain ⟨p, owner, key⟩ := found
    rw [method] at h
    cases h
    obtain ⟨i, j, first, rfl, rfl⟩ := firstShared?_eq_some_iff.mp method
    rw [message_shared_method]
    exact .declared first
  | none =>
    have declared := firstShared?_eq_none_iff_untaken.mp method
    cases integration : firstShared? (comparedKey? .integration) [] ps with
    | some found =>
      obtain ⟨p, owner, key⟩ := found
      rw [method, integration] at h
      cases h
      obtain ⟨i, j, first, rfl, rfl⟩ := firstShared?_eq_some_iff.mp integration
      rw [message_shared_integration]
      exact .written declared first
    | none =>
      have written := firstShared?_eq_none_iff_untaken.mp integration
      rw [method, integration] at h
      obtain ⟨l, given, h⟩ := Option.bind_eq_some_iff.mp h
      obtain ⟨p, found, rfl⟩ := Option.map_eq_some_iff.mp h
      obtain ⟨i, rfl, hit, earlier⟩ := find?_hitsLiteral_eq_some_iff.mp found
      exact .literal declared written given hit earlier

theorem clash?_of_blamed {literal : Option LiteralHeader} {text : String}
    (h : Blamed ps literal text) :
    ∃ clash, clash? ps literal = some clash ∧ clash.message = text := by
  rw [clash?_eq]
  cases h with
  | declared first =>
    have method := firstShared?_eq_some_iff.mpr ⟨_, _, first, rfl, rfl⟩
    rw [method]
    exact ⟨_, rfl, message_shared_method _ _ _⟩
  | written declared first =>
    have method := firstShared?_eq_none_iff_untaken.mpr declared
    have integration := firstShared?_eq_some_iff.mpr ⟨_, _, first, rfl, rfl⟩
    rw [method, integration]
    exact ⟨_, rfl, message_shared_integration _ _ _⟩
  | @literal i l declared written given hit earlier =>
    have method := firstShared?_eq_none_iff_untaken.mpr declared
    have integration := firstShared?_eq_none_iff_untaken.mpr written
    have found := find?_hitsLiteral_eq_some_iff.mpr ⟨i, rfl, hit, earlier⟩
    cases given
    refine ⟨.literal (ps.get i) l.header, ?_, rfl⟩
    rw [method, integration]
    simp only [Option.bind_some, found, Option.map_some]

theorem compile_eq_fail_iff {literal : Option LiteralHeader} {clash : Clash} :
    compile ps literal = .fail (.invariantViolation clash) ↔ clash? ps literal = some clash := by
  constructor
  · intro fails
    cases found : clash? ps literal with
    | none =>
      obtain ⟨set, succeeds⟩ := (succeeds_iff_clash?_eq_none ps literal).mpr found
      rw [fails] at succeeds
      cases succeeds
    | some other =>
      rw [compile_of_clash found] at fails
      cases fails
      rfl
  · exact compile_of_clash

/-- A list that does not compile is blamed for its first clash. The keys of the method request come
before those of the integration request, and these before the literal header, wherever in the list
the parameters stand. Of one kind of clash the first position with a taken key is named, with the
one earlier position that has the key. -/
theorem compile_blames_first_clash (ps : List Parameter) (literal : Option LiteralHeader) :
    (¬ (compile ps literal).Succeeds ↔ ∃ text, Blamed ps literal text) ∧
    ∀ text, Blamed ps literal text ↔ ∃ clash,
      compile ps literal = .fail (.invariantViolation clash) ∧
        (Error.invariantViolation clash).message = "Invariant violation: " ++ text := by
  simp only [compile_eq_fail_iff]
  constructor
  · rw [succeeds_iff_clash?_eq_none, ← ne_eq, Option.ne_none_iff_exists']
    constructor
    · intro ⟨clash, found⟩
      exact ⟨_, blamed_of_clash? found⟩
    · intro ⟨text, blamed⟩
      obtain ⟨clash, found, -⟩ := clash?_of_blamed blamed
      exact ⟨clash, found⟩
  · intro text
    constructor
    · intro blamed
      obtain ⟨clash, found, rfl⟩ := clash?_of_blamed blamed
      exact ⟨clash, found, rfl⟩
    · intro ⟨clash, found, message⟩
      have same : clash.message = text := (String.append_right_inj _).mp message
      exact same ▸ blamed_of_clash? found

/-- The header and the name from the context clash earlier in this list, but on the integration
request. -/
example :
    let header : Parameter := ⟨.header, "Authorizer-PrincipalId", true, rfl⟩
    let tag : Parameter := ⟨.query, "tag", true, rfl⟩
    let tags : Parameter := ⟨.multiValueQuery, "tag", false, rfl⟩
    (compile [header, principal, tag, tags] none).result =
      .error (.invariantViolation (.shared tags tag .method "method.request.querystring.tag")) := by
  decide +kernel

end GatewayPlan.Mapping
