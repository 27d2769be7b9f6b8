import GatewayPlan.Proofs.Decimal.Digits
import GatewayPlan.Proofs.Except
import GatewayPlan.Url.Parser

/-!
# The marks of a URL's text

A slash ends the authority of a URL and each segment of its path, and a question mark or a number
sign ends the path. A URL that was read has none of them inside a part that they would end: they are
escaped, or refused, or the cut was made there.
-/

namespace GatewayPlan

namespace Percent

theorem isAlphanum_hexDigit : ∀ n < 16, (hexDigit n).isAlphanum = true := by decide

/-- An encoded text has percent signs, digits and what stood for itself. -/
theorem forall_mem_encode {P : Char → Prop} {escaped : Char → Bool} {cs : List Char}
    (percent : P '%') (digit : ∀ c : Char, c.isAlphanum = true → P c)
    (own : ∀ c ∈ cs, escaped c = false → P c) : ∀ c ∈ (encode escaped cs).toList, P c := by
  intro c mem
  rw [encode, String.toList_ofList, List.mem_flatMap] at mem
  obtain ⟨d, inText, mem⟩ := mem
  unfold encodeChar at mem
  split at mem
  case isTrue =>
    obtain ⟨b, -, mem⟩ := List.mem_flatMap.mp mem
    have small : b.toNat < 256 := UInt8.toNat_lt b
    simp only [encodeByte, List.mem_cons, List.not_mem_nil, or_false] at mem
    rcases mem with rfl | rfl | rfl
    · exact percent
    · exact digit _ (isAlphanum_hexDigit _ (by omega))
    · exact digit _ (isAlphanum_hexDigit _ (by omega))
  case isFalse kept =>
    rw [List.mem_singleton] at mem
    subst mem
    exact own c inText (by simpa using kept)

/-- A character has one byte at least. -/
theorem bytes_ne_nil (c : Char) : c.toString.toUTF8.toList ≠ [] := by
  have seen_kept : ∀ (bytes : ByteArray) (i : Nat) (seen : List UInt8), seen ≠ [] →
      ByteArray.toList.loop bytes i seen ≠ [] := by
    intro bytes i seen more
    fun_induction ByteArray.toList.loop bytes i seen with
    | case1 i seen _ ih => exact ih (List.cons_ne_nil _ _)
    | case2 i seen => exact fun empty => more (List.reverse_eq_nil_iff.mp empty)
  have first : 0 < c.toString.toUTF8.size := by
    have size : c.toString.toUTF8.size = c.utf8Size := String.utf8ByteSize_singleton
    rw [size]
    exact c.utf8Size_pos
  rw [ByteArray.toList, ByteArray.toList.loop, if_pos first]
  exact seen_kept _ _ _ (List.cons_ne_nil _ _)

theorem head?_encode (escaped : Char → Bool) (cs : List Char) :
    (encode escaped cs).toList.head? = cs.head?.map fun c => if escaped c then '%' else c := by
  cases cs with
  | nil => rfl
  | cons c rest =>
    rw [encode, String.toList_ofList, List.flatMap_cons, encodeChar, List.head?_cons,
      Option.map_some]
    split
    · obtain ⟨b, bytes, cut⟩ := List.exists_cons_of_ne_nil (bytes_ne_nil c)
      rw [cut]
      rfl
    · rfl

end Percent

namespace Url

/-- Nothing in the text ends an authority, so nothing ends a segment or the path. -/
def Clear (cs : List Char) : Prop :=
  ∀ c ∈ cs, endsAuthority false c = false

instance (cs : List Char) : Decidable (Clear cs) :=
  List.decidableBAll (fun c => endsAuthority false c = false) cs

/-- Nothing in the text ends the path. -/
def Unended (cs : List Char) : Prop :=
  ∀ c ∈ cs, endsPath c = false

theorem endsAuthority_eq_false_iff {c : Char} :
    endsAuthority false c = false ↔ c ≠ '/' ∧ c ≠ '?' ∧ c ≠ '#' := by
  simp [endsAuthority, isSlash, and_assoc]

theorem endsPath_eq_false_iff {c : Char} : endsPath c = false ↔ c ≠ '?' ∧ c ≠ '#' := by
  simp [endsPath]

/-- A class of characters that leaves the three marks out. -/
theorem Clear.of_forall {p : Char → Bool} {cs : List Char}
    (marks : p '/' = false ∧ p '?' = false ∧ p '#' = false) (h : ∀ c ∈ cs, p c = true) :
    Clear cs := by
  intro c mem
  have kept := h c mem
  rw [endsAuthority_eq_false_iff]
  refine ⟨?_, ?_, ?_⟩ <;> rintro rfl
  · exact Bool.false_ne_true (marks.1.symm.trans kept)
  · exact Bool.false_ne_true (marks.2.1.symm.trans kept)
  · exact Bool.false_ne_true (marks.2.2.symm.trans kept)

theorem clear_nil : Clear [] := nofun

theorem clear_append_iff {a b : List Char} : Clear (a ++ b) ↔ Clear a ∧ Clear b :=
  List.forall_mem_append

theorem Clear.unended {cs : List Char} (h : Clear cs) : Unended cs := fun c mem =>
  endsPath_eq_false_iff.mpr (endsAuthority_eq_false_iff.mp (h c mem)).2

theorem Clear.slash_notMem {cs : List Char} (h : Clear cs) : '/' ∉ cs := fun mem =>
  (endsAuthority_eq_false_iff.mp (h '/' mem)).1 rfl

theorem not_endsAuthority_of_isAlphanum {c : Char} (h : c.isAlphanum = true) :
    endsAuthority false c = false :=
  Clear.of_forall (p := Char.isAlphanum) (by decide) (List.forall_mem_singleton.mpr h) c
    List.mem_cons_self

theorem clear_encode {escaped : Char → Bool} {cs : List Char}
    (h : ∀ c ∈ cs, escaped c = false → endsAuthority false c = false) :
    Clear (Percent.encode escaped cs).toList :=
  Percent.forall_mem_encode (by decide) (fun _ => not_endsAuthority_of_isAlphanum) h

/-- The marks need not be escaped where they do not stand. -/
theorem clear_encode_of_escaped {escaped : Char → Bool} {cs : List Char}
    (slash : escaped '/' = true ∨ '/' ∉ cs) (question : escaped '?' = true)
    (number : escaped '#' = true) : Clear (Percent.encode escaped cs).toList := by
  refine clear_encode fun c mem kept => ?_
  have other {mark : Char} (h : escaped mark = true) : c ≠ mark := by
    rintro rfl
    exact Bool.false_ne_true (kept.symm.trans h)
  rw [endsAuthority_eq_false_iff]
  refine ⟨?_, other question, other number⟩
  rcases slash with isEscaped | absent
  · exact other isEscaped
  · exact fun same => absent (same ▸ mem)

theorem unended_encode {escaped : Char → Bool} {cs : List Char}
    (h : ∀ c ∈ cs, escaped c = false → endsPath c = false) :
    Unended (Percent.encode escaped cs).toList := by
  refine Percent.forall_mem_encode (by decide) (fun c digit => ?_) h
  have clear := not_endsAuthority_of_isAlphanum digit
  exact endsPath_eq_false_iff.mpr (endsAuthority_eq_false_iff.mp clear).2

theorem clear_intercalate {separator : String} {parts : List String}
    (between : Clear separator.toList) (each : ∀ part ∈ parts, Clear part.toList) :
    Clear (separator.intercalate parts).toList := by
  rw [String.toList_intercalate]
  induction parts with
  | nil => exact nofun
  | cons part rest ih =>
    obtain ⟨head, tail⟩ := List.forall_mem_cons.mp each
    cases rest with
    | nil => simpa using head
    | cons next rest =>
      have cut : separator.toList.intercalate ((part :: next :: rest).map String.toList) =
          part.toList ++ (separator.toList ++
            separator.toList.intercalate ((next :: rest).map String.toList)) := by
        simp
      rw [cut, clear_append_iff, clear_append_iff]
      exact ⟨head, between, ih tail⟩

/-! ### Hosts -/

theorem isAlphanum_of_mem_toDigits {n : Nat} :
    ∀ c ∈ Nat.toDigits 16 n, c.isAlphanum = true := by
  have digit : ∀ m < 16, m.digitChar.isAlphanum = true := by decide
  induction n using Nat.strong_induction_on with
  | _ n ih =>
    rw [Nat.toDigits_eq_if (by decide)]
    split
    case isTrue small => exact List.forall_mem_singleton.mpr (digit n small)
    case isFalse large =>
      intro c mem
      rcases List.mem_append.mp mem with high | low
      · exact ih (n / 16) (by omega) c high
      · rw [List.mem_singleton.mp low]
        exact digit (n % 16) (by omega)

theorem clear_toString (n : Nat) : Clear (toString n).toList := by
  rw [Decimal.toList_toString]
  exact Clear.of_forall (p := Char.isDigit) (by decide) fun c => Decimal.isDigit_of_mem

theorem clear_ipv4Text (address : Nat) : Clear (Host.ipv4Text address).toList := by
  refine clear_intercalate (by decide) fun part mem => ?_
  obtain ⟨shift, -, rfl⟩ := List.mem_map.mp mem
  exact clear_toString _

theorem clear_piecesText (pieces : List Nat) : Clear (Host.piecesText pieces).toList := by
  refine clear_intercalate (by decide) fun part mem => ?_
  obtain ⟨n, -, rfl⟩ := List.mem_map.mp mem
  rw [String.toList_ofList]
  exact Clear.of_forall (by decide) isAlphanum_of_mem_toDigits

theorem clear_ipv6Text (pieces : List Nat) : Clear (Host.ipv6Text pieces).toList := by
  unfold Host.ipv6Text
  split
  · exact clear_piecesText pieces
  · rw [String.toList_append, String.toList_append, clear_append_iff, clear_append_iff]
    exact ⟨⟨clear_piecesText _, by decide⟩, clear_piecesText _⟩

theorem clear_of_bracketed? {cs : List Char} {host : Host}
    (h : Host.bracketed? cs = some (.ok host)) : Clear host.text.toList := by
  unfold Host.bracketed? at h
  split at h
  case h_2 => cases h
  case h_1 =>
    rw [Option.some.injEq] at h
    split at h
    case isFalse => cases h
    case isTrue =>
      split at h
      case h_2 => cases h
      case h_1 pieces _ =>
        cases h
        rw [Host.text, String.toList_append, String.toList_append, clear_append_iff,
          clear_append_iff]
        exact ⟨⟨by decide, clear_ipv6Text pieces⟩, by decide⟩

theorem clear_of_hostOfText {cs : List Char} {host : Host} (h : Host.ofText cs = .ok host) :
    Clear host.text.toList := by
  unfold Host.ofText at h
  split at h
  case h_1 bracketed =>
    rw [h] at bracketed
    exact clear_of_bracketed? bracketed
  case h_2 =>
    simp only at h
    split at h
    case isTrue => cases h
    case isFalse allowed =>
      split at h
      case isTrue => cases h
      split at h
      case isTrue =>
        split at h
        case h_2 => cases h
        case h_1 address _ =>
          cases h
          exact clear_ipv4Text address
      case isFalse =>
        cases h
        rw [Host.text, String.toList_ofList]
        refine Clear.of_forall (p := fun c => !Host.isForbiddenInDomain c) (by decide) ?_
        intro c mem
        rw [Bool.not_eq_true, Bool.or_eq_false_iff, List.any_eq_false] at allowed
        simpa using allowed.1 c mem

theorem clear_of_hostOfUnknown {cs : List Char} {host : Host}
    (h : Host.ofUnknown cs = .ok host) : Clear host.text.toList := by
  unfold Host.ofUnknown at h
  split at h
  case h_1 bracketed =>
    rw [h] at bracketed
    exact clear_of_bracketed? bracketed
  case h_2 =>
    split at h
    case isTrue => cases h
    case isFalse allowed =>
      cases h
      have clear : Clear cs := Clear.of_forall (p := fun c => !Host.isForbidden c) (by decide)
        fun c mem => by simpa using (List.any_eq_false.mp (Bool.not_eq_true _ ▸ allowed)) c mem
      exact clear_encode fun c mem _ => clear c mem

end Url
end GatewayPlan
