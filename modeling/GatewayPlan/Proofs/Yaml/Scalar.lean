import GatewayPlan.Proofs.Tree.Plain
import GatewayPlan.Proofs.Yaml.Reading
import GatewayPlan.Yaml.Writer

/-!
# Scalars are read back

A scalar is read back from its line, and where it has further lines from these, whatever the style
in which it is written.
-/

namespace GatewayPlan.Yaml

open GatewayPlan.Tree Reading

/-- A tree that was read stands for another, and is not too deep to be read. -/
structure Shows (depth : Nat) (m n : Node) : Prop where
  standsFor : m.StandsFor n
  limited : m.limited depth = m

/-- A text up to the end of a line, in a block around column `indent`, that is read as `n`. -/
structure Inline (indent depth : Nat) (cs : List Char) (n : Node) : Prop where
  opens : ∀ tail, Opens (cs ++ tail)
  reads : ∀ (fuel line column : Nat) (fresh : Bool) {tail : List Char}, 0 < column →
    Below (indent + 1) tail → ∃ m g line', line < line' ∧ Shows depth m n ∧
      Runs (content (fuel + 2) false (indent + 1) false)
        ⟨place line column (cs ++ tail), fresh⟩ m g ∧
      skipGap false false g.fresh g.rest = ⟨start line' tail, true⟩

variable {indent depth : Nat} {cs tail : List Char} {n : Node}

theorem skipGap_line (after : Below (indent + 1) tail) (fresh : Bool) (line column : Nat) :
    skipGap false false fresh (place line column ('\n' :: tail)) =
      ⟨start (line + 1) tail, true⟩ := by
  rw [skipGap_break (by decide), skipGap_tail after]

/-! ### Without quotes -/

theorem inline_plain {s : String} (own : Plainly s.toList) (stands : (Node.plain s).StandsFor n) :
    Inline indent depth (s.toList ++ ['\n']) n where
  opens tail := by
    rw [List.append_assoc]
    exact opens_plain own _
  reads fuel line column fresh tail inside after := by
    have boundary := atBoundary_of_column line inside (s.toList ++ '\n' :: tail)
    have read : scanPlain false (indent + 1) [] .none
        (place line column (s.toList ++ '\n' :: tail)) = some ⟨s, start (line + 1) tail, true⟩ := by
      rw [scanPlain_text own line column _ boundary, scanPlain_line after _ _ _ (by omega)]
      simp [Backwards.text]
    refine ⟨.plain s, ⟨start (line + 1) tail, true⟩, line + 1, Nat.lt_succ_self line,
      ⟨stands, rfl⟩, ?_, skipGap_start after (line + 1)⟩
    rw [List.append_assoc]
    exact .content_plain own boundary read

/-! ### Quotes and blocks -/

/-- A text that goes on after a mark is read as `s`, and the line after it is reached. -/
def GoesOn (indent : Nat) (mark : Char) (cs : List Char) (s : String) : Prop :=
  ∃ scan, scanner? (indent + 1) mark = some scan ∧
    ∀ (line column : Nat) {tail : List Char}, 0 < column → Below (indent + 1) tail →
      ∃ text fresh line', line < line' ∧
        scan (place line column (cs ++ tail)) = some ⟨s, text, fresh⟩ ∧
        skipGap false false fresh text = ⟨start line' tail, true⟩

theorem inline_marked {mark : Char} {s : String} (read : GoesOn indent mark cs s) :
    Inline indent depth (mark :: cs) (.text s) := by
  obtain ⟨scan, own, read⟩ := read
  have marks : mark ∈ ['"', '\'', '|'] := by
    unfold scanner? at own
    split at own
    case h_4 => cases own
    all_goals simp
  have solid : isSolid mark = true := by fin_cases marks <;> rfl
  refine ⟨fun tail => opens_of_ne solid (by fin_cases marks <;> decide) _, ?_⟩
  intro fuel line column fresh tail inside after
  obtain ⟨text, fresh', line', lt, scanned, gap⟩ := read line (column + 1) (by omega) after
  exact ⟨.text s, ⟨text, fresh'⟩, line', lt, ⟨.refl _, rfl⟩, .content_text own inside scanned, gap⟩

theorem goesOn_double (s : String) :
    GoesOn indent '"' (s.toList.flatMap doubleChar ++ ['"', '\n']) s := by
  refine ⟨_, rfl, fun line column tail inside after => ?_⟩
  have read := scanDouble_text s.toList [] [] line column inside ('\n' :: tail)
  have text : Backwards.text (([] ++ s.toList).reverse ++ []) = s := by simp [Backwards.text]
  rw [text] at read
  rw [List.append_assoc]
  exact ⟨_, _, line + 1, Nat.lt_succ_self line, read, skipGap_line after false line _⟩

theorem goesOn_single {s : String} (style : Style.ofText s = .single) :
    GoesOn indent '\'' (singleRest (List.replicate (indent + 2) ' ') false s.toList ++ ['\n'])
      s := by
  refine ⟨_, rfl, fun line column tail inside after => ?_⟩
  obtain ⟨line', column', le, read⟩ :=
    scanSingle_single style (Nat.succ_pos (indent + 1)) line column inside tail
  rw [List.append_assoc]
  exact ⟨_, _, line' + 1, Nat.lt_succ_of_le le, read, skipGap_line after false line' column'⟩

theorem goesOn_block {s : String} (style : Style.ofText s = .block) :
    GoesOn indent '|' ((blockHints s.toList).toList ++
      '\n' :: blockRest (List.replicate (indent + 2) ' ') true s.toList) s := by
  refine ⟨_, rfl, fun line column tail inside after => ?_⟩
  obtain ⟨line', lt, read⟩ :=
    scanBlock_block style (after.mono (Nat.le_succ (indent + 1))) line column
  rw [List.append_assoc, List.cons_append]
  exact ⟨_, _, line', lt, read, skipGap_start after line'⟩

/-- A text stands for itself if it is fit to stand without quotes. -/
theorem standsFor_text_of_style {s : String} (style : Style.ofText s = .plain) :
    (Node.plain s).StandsFor (.text s) := by
  have clear := (plainly_of_style style).2
  refine Node.standsFor_text_iff.mpr (.inr ⟨rfl, ?_⟩)
  simp only [isAmbiguous, Bool.or_eq_false_iff] at clear
  rcases Plain.resolve_cases s with e | ⟨b, e⟩ | ⟨n, e⟩ | e <;> simp_all

/-- A text is read back in the style in which it is written. -/
theorem inline_textLine (indent depth : Nat) (s : String) :
    Inline indent depth (textLine (indent + 2) s).toList (.text s) := by
  unfold textLine
  split
  case h_1 style =>
    rw [String.toList_append]
    exact inline_plain (plainly_of_style style).1 (standsFor_text_of_style style)
  case h_2 style =>
    have read : Inline indent depth _ _ := inline_marked (goesOn_single style)
    simpa [single] using read
  case h_3 =>
    have read : Inline indent depth _ _ := inline_marked (goesOn_double s)
    simpa [double] using read
  case h_4 style =>
    have read : Inline indent depth _ _ := inline_marked (goesOn_block style)
    simpa [block] using read

/-! ### Other scalars -/

theorem inline_null : Inline indent depth "null\n".toList .null :=
  inline_plain (s := "null") (plainly_of_fitsPlain (by decide) (by decide)) (.plain rfl)

theorem inline_bool (b : Bool) :
    Inline indent depth ((if b then "true" else "false") ++ "\n").toList (.bool b) := by
  rw [String.toList_append]
  cases b with
  | true => exact inline_plain (plainly_of_fitsPlain (by decide) (by decide)) (.plain rfl)
  | false => exact inline_plain (plainly_of_fitsPlain (by decide) (by decide)) (.plain rfl)

theorem hasMark_eq_false {cs : List Char} (h : ∀ c ∈ cs, c ≠ ':' ∧ c ≠ '#') :
    hasMark cs = false := by
  induction cs with
  | nil => rfl
  | cons c rest ih =>
    cases rest with
    | nil => rfl
    | cons d rest =>
      have own := h d (List.mem_cons_of_mem _ List.mem_cons_self)
      rw [hasMark, ih fun c mem => h c (List.mem_cons_of_mem _ mem)]
      simp [own]

theorem plainly_toDigits (n : Nat) : Plainly (Nat.toDigits 10 n) := by
  have other : ∀ {d : Char}, d.isDigit = false → ∀ c ∈ Nat.toDigits 10 n, c ≠ d :=
    fun no c mem => Decimal.ne_of_isDigit (Decimal.isDigit_of_mem mem) no
  have unbroken : ∀ c ∈ Nat.toDigits 10 n, isBreak c = false := by
    intro c mem
    simp only [isBreak, Bool.or_eq_false_iff, decide_eq_false_iff_not]
    exact ⟨⟨other (by decide) c mem, other (by decide) c mem⟩, other (by decide) c mem⟩
  refine ⟨fun c mem => ⟨unbroken c mem, other (by decide) c mem⟩, ?_, ?_, ?_⟩
  · obtain ⟨c, rest, own, -⟩ := Decimal.exists_toDigits n
    have mem : c ∈ Nat.toDigits 10 n := own ▸ List.mem_cons_self
    refine ⟨c, rest, own, ?_, ?_, ?_⟩
    · simp [isSolid, isBlank, unbroken c mem, other (d := ' ') (by decide) c mem,
        other (d := '\t') (by decide) c mem, other (d := '#') (by decide) c mem,
        other (d := '\uFEFF') (by decide) c mem]
    · intro mark
      fin_cases mark <;> exact other (by decide) _ mem rfl
    · rintro (rfl | rfl | rfl) <;> exact absurd rfl (other (by decide) _ mem)
  · exact hasMark_eq_false fun c mem => ⟨other (by decide) c mem, other (by decide) c mem⟩
  · intro last
    exact other (by decide) _ (List.mem_of_getLast? last) rfl

theorem inline_natural {n : Nat} (fits : n < UInt64.size) :
    Inline indent depth (toString n ++ "\n").toList (.num (.natural n)) := by
  rw [String.toList_append]
  refine inline_plain ?_ (.plain ?_)
  · rw [Decimal.toList_toString]
    exact plainly_toDigits n
  · have small : n < Nat.pow 2 64 := fits
    rw [Plain.resolve_toString (Nat.lt_trans small (by decide)), Plain.kept?, if_pos small]

/-- Brackets with nothing between them. -/
theorem inline_brackets {c d : Char} (solid : isSolid c = true) (marks : c ∉ ['&', '!', '-', '?'])
    {m : Node} (shows : m.limited depth = m)
    (read : ∀ (fuel line column : Nat) (fresh : Bool) (cs : List Char),
      Runs (content (fuel + 2) false (indent + 1) false) ⟨place line column (c :: d :: cs), fresh⟩ m
        ⟨place line (column + 2) cs, false⟩) : Inline indent depth [c, d, '\n'] m where
  opens _ := opens_of_ne solid marks _
  reads fuel line column fresh tail _ after :=
    ⟨m, _, line + 1, Nat.lt_succ_self line, ⟨.refl m, shows⟩,
      read fuel line column fresh ('\n' :: tail), skipGap_line after false line (column + 2)⟩

theorem inline_emptyList : Inline indent (depth + 1) "[]\n".toList (.seq []) :=
  inline_brackets rfl (by decide) rfl fun _ _ _ _ _ => Runs.content_emptyList

theorem inline_emptyMap : Inline indent (depth + 1) "\x7b\x7d\n".toList (.map []) :=
  inline_brackets rfl (by decide) rfl fun _ _ _ _ _ => Runs.content_emptyMap

end GatewayPlan.Yaml
