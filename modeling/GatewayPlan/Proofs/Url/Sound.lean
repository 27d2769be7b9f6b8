import GatewayPlan.Proofs.Text.Case
import GatewayPlan.Proofs.Url.Marks
import Mathlib.Data.List.TakeWhile

/-!
# What a URL is after reading

The scheme has letters, digits and a few signs. The authority and the names of the path are without
the marks that would end them. A path that is not cut into names does not start at the root, and no
authority stands before it.
-/

namespace GatewayPlan.Url

structure SoundAuthority (a : Authority) : Prop where
  user : Clear a.user.toList
  password : ∀ password ∈ a.password, Clear password.toList
  host : Clear a.host.text.toList

inductive SoundPath : UrlPath → Prop
  | whole {text : String} : Unended text.toList → text.toList.head? ≠ some '/' →
      SoundPath (.whole text)
  | segments {names : List String} : (∀ name ∈ names, Clear name.toList) →
      SoundPath (.segments names)

structure Sound (u : Url) : Prop where
  scheme : ∀ c ∈ u.scheme.toList, isSchemeChar c = true
  authority : ∀ a ∈ u.authority, SoundAuthority a
  path : SoundPath u.path
  /-- Behind an authority a path is cut into names. -/
  rooted : u.authority.isSome = true → ∃ names, u.path = .segments names

/-! ### Schemes -/

theorem isSchemeChar_toLower {c : Char} (h : isSchemeChar c = true) :
    isSchemeChar c.toLower = true := by
  by_cases upper : c.isUpper = true
  · have letter : c.toLower.isAlpha = true :=
      Bool.or_eq_true_iff.mpr (.inr (Text.isLower_toLower upper))
    have alphanum : c.toLower.isAlphanum = true := Bool.or_eq_true_iff.mpr (.inl letter)
    simp [isSchemeChar, alphanum]
  · rwa [Text.toLower_eq_self upper]

theorem scheme_of_scheme? {cs rest : List Char} {scheme : String}
    (h : scheme? cs = some (scheme, rest)) : ∀ c ∈ scheme.toList, isSchemeChar c = true := by
  unfold scheme? at h
  split at h
  case h_2 => cases h
  case h_1 =>
    split at h
    case isFalse => cases h
    case isTrue =>
      cases h
      intro c mem
      rw [String.toList_ofList, List.mem_map] at mem
      obtain ⟨d, taken, rfl⟩ := mem
      exact isSchemeChar_toLower (List.mem_takeWhile_imp taken)

/-! ### Authorities -/

theorem clear_userinfo (cs : List Char) : Clear (Percent.encode Percent.userinfo cs).toList :=
  clear_encode_of_escaped (.inl rfl) rfl rfl

theorem clear_of_readHost {kind : SchemeKind} {cs : List Char} {host : Host}
    (h : readHost kind cs = .ok host) : Clear host.text.toList := by
  unfold readHost at h
  split at h
  · exact clear_of_hostOfUnknown h
  · split at h
    · cases h
    · exact clear_of_hostOfText h

theorem sound_of_readAuthority {kind : SchemeKind} {cs rest : List Char} {a : Authority}
    (h : readAuthority kind cs = .ok (a, rest)) : SoundAuthority a := by
  unfold readAuthority at h
  simp only at h
  split at h
  case isTrue => cases h
  case isFalse =>
    obtain ⟨host, read, h⟩ := Except.bind_eq_ok_iff.mp h
    obtain ⟨⟨port, after⟩, -, h⟩ := Except.bind_eq_ok_iff.mp h
    simp only at h
    split at h
    case isTrue => cases h
    case isFalse =>
      cases h
      refine ⟨clear_userinfo _, ?_, clear_of_readHost read⟩
      intro password given
      simp only [credentials] at given
      split at given
      case isTrue => cases given
      case isFalse =>
        cases given
        exact clear_userinfo _

theorem SoundAuthority.clear_credentials {a : Authority} (h : SoundAuthority a) :
    Clear a.credentials.toList := by
  unfold Authority.credentials
  split
  case h_1 password given =>
    simp only [String.toList_append, clear_append_iff]
    exact ⟨⟨⟨h.user, by decide⟩, h.password password given⟩, by decide⟩
  case h_2 =>
    split
    · exact clear_nil
    · rw [String.toList_append, clear_append_iff]
      exact ⟨h.user, by decide⟩

theorem SoundAuthority.clear_bare {a : Authority} (h : SoundAuthority a) :
    Clear a.bare.toList := by
  unfold Authority.bare
  simp only [String.toList_append, clear_append_iff]
  refine ⟨⟨h.clear_credentials, h.host⟩, ?_⟩
  split
  · rw [String.toList_append, clear_append_iff]
    exact ⟨by decide, clear_toString _⟩
  · exact clear_nil

/-! ### Paths -/

theorem separator_notMem_splitParts {separator : Char} {cs : List Char} :
    ∀ part ∈ Host.splitParts separator cs, separator ∉ part := by
  induction cs with
  | nil => exact List.forall_mem_singleton.mpr List.not_mem_nil
  | cons c rest ih =>
    unfold Host.splitParts
    split
    case isTrue => exact List.forall_mem_cons.mpr ⟨List.not_mem_nil, ih⟩
    case isFalse other =>
      cases cut : Host.splitParts separator rest with
      | nil => exact nofun
      | cons first parts =>
        rw [cut] at ih
        obtain ⟨head, tail⟩ := List.forall_mem_cons.mp ih
        refine List.forall_mem_cons.mpr ⟨?_, tail⟩
        rw [List.mem_cons, not_or]
        exact ⟨fun same => other same.symm, head⟩

theorem clear_segmentText {kind : SchemeKind} {first : Bool} {segment : List Char}
    (h : '/' ∉ segment) : Clear (segmentText kind first segment).toList := by
  unfold segmentText
  split
  case isTrue drive =>
    rw [Bool.and_eq_true] at drive
    obtain ⟨-, drive⟩ := drive
    unfold isDrive at drive
    split at drive
    case h_1 c d =>
      rw [Bool.and_eq_true] at drive
      have letter : Clear [c] := Clear.of_forall (p := Char.isAlpha) (by decide)
        (List.forall_mem_singleton.mpr drive.1)
      rw [String.toList_append, String.toList_ofList, clear_append_iff]
      exact ⟨letter, by decide⟩
    case h_2 => cases drive
  case isFalse => exact clear_encode_of_escaped (.inr h) rfl rfl

theorem clear_of_mem_resolveSegments {kind : SchemeKind} {names : List String}
    {segments : List (List Char)} (before : ∀ name ∈ names, Clear name.toList)
    (uncut : ∀ segment ∈ segments, '/' ∉ segment) :
    ∀ name ∈ resolveSegments kind names segments, Clear name.toList := by
  induction segments generalizing names with
  | nil => exact before
  | cons segment rest ih =>
    obtain ⟨head, tail⟩ := List.forall_mem_cons.mp uncut
    refine ih ?_ tail
    have final : ∀ name ∈ (if rest.isEmpty then [""] else []), Clear name.toList := by
      split
      · exact List.forall_mem_singleton.mpr clear_nil
      · exact nofun
    split
    · refine List.forall_mem_append.mpr ⟨fun name mem => ?_, final⟩
      unfold parent at mem
      split at mem
      · exact before name mem
      · exact before name (List.dropLast_subset names mem)
    split
    · exact List.forall_mem_append.mpr ⟨before, final⟩
    · exact List.forall_mem_append.mpr
        ⟨before, List.forall_mem_singleton.mpr (clear_segmentText head)⟩

theorem clear_of_mem_segmentsOf (kind : SchemeKind) (cs : List Char) :
    ∀ name ∈ segmentsOf kind cs, Clear name.toList :=
  clear_of_mem_resolveSegments nofun separator_notMem_splitParts

theorem unended_cutPath (cs : List Char) : Unended (cutPath cs).1 := by
  intro c mem
  simpa using List.mem_takeWhile_imp mem

/-- A path that does not start at the root does not do so when it is encoded. -/
theorem head?_encode_cutPath {escaped : Char → Bool} {cs : List Char}
    (unrooted : ∀ rest, cs ≠ '/' :: rest) :
    (Percent.encode escaped (cutPath cs).1).toList.head? ≠ some '/' := by
  have first : (cutPath cs).1.head? = cs.head?.filter fun c => !endsPath c := by
    simp [cutPath, List.head?_takeWhile]
  rw [Percent.head?_encode, first]
  intro starts
  obtain ⟨c, taken, text⟩ := Option.map_eq_some_iff.mp starts
  obtain ⟨rest, chars⟩ := List.head?_eq_some_iff.mp (Option.filter_eq_some_iff.mp taken).1
  split at text
  · cases text
  · exact unrooted rest (text ▸ chars)

/-! ### URLs -/

theorem sound_assemble {scheme : String} {kind : SchemeKind} {authority : Option Authority}
    {cs : List Char} (spelled : ∀ c ∈ scheme.toList, isSchemeChar c = true)
    (known : ∀ a ∈ authority, SoundAuthority a) :
    (assemble scheme kind authority (pathAfterAuthority kind) cs).Sound := by
  obtain ⟨names, cut, clear⟩ : ∃ names, pathAfterAuthority kind (cutPath cs).1 = .segments names ∧
      ∀ name ∈ names, Clear name.toList := by
    unfold pathAfterAuthority
    split
    · exact ⟨[], rfl, nofun⟩
    · exact ⟨_, rfl, clear_of_mem_segmentsOf kind _⟩
  have path : (assemble scheme kind authority (pathAfterAuthority kind) cs).path =
      .segments names := cut
  exact ⟨spelled, known, path ▸ .segments clear, fun _ => ⟨names, path⟩⟩

theorem sound_ofOther {scheme : String} {cs : List Char} {u : Url}
    (spelled : ∀ c ∈ scheme.toList, isSchemeChar c = true) (h : ofOther scheme cs = .ok u) :
    u.Sound := by
  unfold ofOther at h
  split at h
  case h_1 =>
    obtain ⟨⟨a, after⟩, read, h⟩ := Except.bind_eq_ok_iff.mp h
    cases h
    refine sound_assemble spelled fun b own => ?_
    cases own
    exact sound_of_readAuthority read
  case h_2 =>
    cases h
    exact sound_assemble spelled nofun
  case h_3 unrooted =>
    cases h
    refine ⟨spelled, nofun, .whole ?_ ?_, nofun⟩
    · exact unended_encode fun c mem _ => unended_cutPath cs c mem
    · exact head?_encode_cutPath unrooted

theorem sound_assembleFile {host : Host} {cs : List Char} (known : Clear host.text.toList) :
    (assembleFile host cs).Sound := by
  have names : ∀ name ∈ (segmentsOf .file (cutPath cs).1).dropWhile (· = ""),
      Clear name.toList := fun name mem =>
    clear_of_mem_segmentsOf .file _ name ((List.dropWhile_suffix _).subset mem)
  have spelled : ∀ c ∈ "file".toList, isSchemeChar c = true := List.all_eq_true.mp (by decide)
  refine ⟨spelled, ?_, .segments ?_, fun _ => ⟨_, rfl⟩⟩
  · intro a own
    cases own
    refine ⟨clear_nil, nofun, ?_⟩
    simp only
    split
    · exact clear_nil
    · exact known
  · split
    · exact List.forall_mem_singleton.mpr clear_nil
    · exact names

theorem clear_of_fileHost {cs rest : List Char} {host : Host}
    (h : fileHost cs = .ok (host, rest)) : Clear host.text.toList := by
  unfold fileHost at h
  simp only at h
  split at h
  · cases h
    exact clear_nil
  split at h
  · cases h
    exact clear_nil
  · obtain ⟨named, read, h⟩ := Except.bind_eq_ok_iff.mp h
    split at h
    · cases h
      exact clear_nil
    · cases h
      exact clear_of_hostOfText read

theorem sound_ofFile {cs : List Char} {u : Url} (h : ofFile cs = .ok u) : u.Sound := by
  unfold ofFile at h
  split at h
  · split at h
    · obtain ⟨⟨host, rest⟩, read, h⟩ := Except.bind_eq_ok_iff.mp h
      cases h
      exact sound_assembleFile (clear_of_fileHost read)
    · cases h
      exact sound_assembleFile clear_nil
  · cases h
    exact sound_assembleFile clear_nil

theorem sound_ofText {s : String} {u : Url} (h : ofText s = .ok u) : u.Sound := by
  unfold ofText at h
  split at h
  case h_1 => cases h
  case h_2 scheme rest read =>
    have spelled := scheme_of_scheme? read
    split at h
    case h_1 => exact sound_ofFile h
    case h_2 => exact sound_ofOther spelled h
    case h_3 =>
      obtain ⟨⟨a, after⟩, readA, h⟩ := Except.bind_eq_ok_iff.mp h
      cases h
      refine sound_assemble spelled fun b own => ?_
      cases own
      exact sound_of_readAuthority readA

end GatewayPlan.Url
