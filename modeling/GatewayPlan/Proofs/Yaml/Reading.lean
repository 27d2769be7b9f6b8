import GatewayPlan.Proofs.Yaml.Block
import GatewayPlan.Proofs.Yaml.Quoted
import GatewayPlan.Yaml.Document

/-!
# The steps of the reader

What the steps of the reader take from a text without names and tags, and what they leave of it.
-/

namespace GatewayPlan.Yaml.Reading

open GatewayPlan.Tree

variable {α β : Type}

theorem run_bind {r : Reading α} {f : α → Reading β} {x : α} {s s' : Position}
    (h : r s = some (x, s')) : (r >>= f) s = f x s' := by
  change (r s).bind (fun t => f t.1 t.2) = _
  rw [h]
  rfl

/-- The reader gives `x` and comes from one gap to another, whatever has been named before. -/
def Runs (r : Reading α) (g : Gap) (x : α) (g' : Gap) : Prop :=
  ∀ anchors sets, r ⟨g.rest, g.fresh, anchors, sets⟩ =
    some (x, ⟨g'.rest, g'.fresh, anchors, sets⟩)

/-- How a text goes on after the mark it starts with. -/
def scanner? (least : Nat) : Char → Option (List Placed → Option Scanned)
  | '"' => some (scanDouble [] .none .outside)
  | '\'' => some (scanSingle [] .none)
  | '|' => some (scanBlock false least)
  | _ => none

namespace Runs

variable {g g' g'' : Gap} {x : α} {y : β} {text : List Placed} {p : Placed} {fresh : Bool}

theorem pure (x : α) (g : Gap) : Runs (pure x) g x g :=
  fun _ _ => rfl

theorem bind {r : Reading α} {f : α → Reading β} (h : Runs r g x g') (h' : Runs (f x) g' y g'') :
    Runs (r >>= f) g y g'' :=
  fun anchors sets => (run_bind (h anchors sets)).trans (h' anchors sets)

theorem get {f : Position → Reading α}
    (h : ∀ anchors sets, Runs (f ⟨g.rest, g.fresh, anchors, sets⟩) g x g') :
    Runs (get >>= f) g x g' :=
  fun anchors sets => h anchors sets anchors sets

theorem rest (g : Gap) : Runs rest g g.rest g :=
  fun _ _ => rfl

theorem here : Runs here ⟨p :: text, fresh⟩ p ⟨p :: text, fresh⟩ :=
  fun _ _ => rfl

theorem drop {fresh' : Bool} : Runs (drop fresh') ⟨p :: text, fresh⟩ () ⟨text, fresh'⟩ :=
  fun _ _ => rfl

theorem skip (flow : Bool) (g : Gap) :
    Runs (skip flow) g () (skipGap flow false g.fresh g.rest) :=
  fun _ _ => rfl

theorem require {b : Bool} (h : b = true) (g : Gap) : Runs (require b) g () g := by
  subst h
  exact pure () g

theorem accept {scan : List Placed → Option Scanned} {s : Scanned} (h : scan text = some s)
    (g : Gap) : Runs (accept scan text) g s.text ⟨s.rest, s.fresh⟩ := by
  intro anchors sets
  rw [Reading.accept, h]
  rfl

theorem dress_none (n : Node) (g : Gap) : Runs (dress .none n) g n g :=
  fun _ _ => rfl

theorem merge_none (g : Gap) :
    Runs (liftM (Properties.none.merge? .none) : Reading Properties) g .none g :=
  fun _ _ => rfl

theorem outside_nil (least : Nat) : Runs (outside least) ⟨[], fresh⟩ true ⟨[], fresh⟩ :=
  fun _ _ => rfl

theorem outside_cons {least : Nat} {b : Bool}
    (h : (Placed.atBoundary (p :: text) || p.column < least) = b) :
    Runs (outside least) ⟨p :: text, fresh⟩ b ⟨p :: text, fresh⟩ := by
  subst h
  exact fun _ _ => rfl

theorem atColon_nil (start : Placed) : Runs (atColon false start) ⟨[], fresh⟩ false ⟨[], fresh⟩ :=
  fun _ _ => rfl

theorem atColon_cons {start : Placed} {b : Bool} (h : (p.char = ':' &&
      (false || Placed.atGap text) && p.line = start.line && p.column ≤ start.column + 1024) = b) :
    Runs (atColon false start) ⟨p :: text, fresh⟩ b ⟨p :: text, fresh⟩ := by
  subst h
  exact fun _ _ => rfl

/-! ### At tokens -/

variable {least line column : Nat} {cs tail : List Char}

theorem outside_token (own : Token cs) (le : least ≤ column) :
    Runs (outside least) ⟨place line column cs, fresh⟩ false ⟨place line column cs, fresh⟩ := by
  obtain ⟨c, rest, rfl, solid⟩ := own.solid
  have boundary := own.inside line column
  rw [place_cons (isBreak_of_isSolid solid)] at boundary ⊢
  exact outside_cons (by simp [boundary, Nat.not_lt.mpr le])

theorem outside_before (own : Token cs) (lt : column < least) :
    Runs (outside least) ⟨place line column cs, fresh⟩ true ⟨place line column cs, fresh⟩ := by
  obtain ⟨c, rest, rfl, solid⟩ := own.solid
  rw [place_cons (isBreak_of_isSolid solid)]
  exact outside_cons (by simp [lt])

theorem outside_start (after : Below least tail) :
    Runs (outside least) ⟨start line tail, fresh⟩ true ⟨start line tail, fresh⟩ := by
  cases after with
  | nothing => exact outside_nil least
  | token lt own =>
    rw [start_token line _ own]
    exact outside_before own lt

theorem atColon_start (after : Below least tail) (lt : p.line < line) :
    Runs (atColon false p) ⟨start line tail, fresh⟩ false ⟨start line tail, fresh⟩ := by
  cases after with
  | nothing => exact atColon_nil p
  | @token k cs _ own =>
    rw [start_token line _ own]
    obtain ⟨c, rest, rfl, solid⟩ := own.solid
    rw [place_cons (isBreak_of_isSolid solid)]
    exact atColon_cons (by simp [Nat.ne_of_gt lt])

theorem atColon_key {c : Char} {column' : Nat} (near : column' ≤ column + 1024)
    (gap : Placed.atGap (place line (column' + 1) tail) = true) :
    Runs (atColon false ⟨c, line, column⟩) ⟨place line column' (':' :: tail), fresh⟩ true
      ⟨place line column' (':' :: tail), fresh⟩ := by
  rw [place_cons (by decide)]
  exact atColon_cons (by simp [gap, near])

/-! ### Scalars -/

variable {c : Char} {scanned : Scanned} {fuel : Nat} {n : Node} {g g' : Gap}

theorem content_leaf (list : c ≠ '[') (map : c ≠ '\x7b')
    (read : Runs (leaf false least false) ⟨⟨c, line, column⟩ :: text, fresh⟩ n g) :
    Runs (content (fuel + 1) false least false) ⟨⟨c, line, column⟩ :: text, fresh⟩ n g := by
  rw [content]
  refine .bind here ?_
  rw [if_neg list, if_neg map]
  exact read

theorem content_plain {more : List Char} (own : Plainly cs)
    (boundary : Placed.atBoundary (place line column (cs ++ more)) = false)
    (read : scanPlain false least [] .none (place line column (cs ++ more)) = some scanned) :
    Runs (content (fuel + 1) false least false) ⟨place line column (cs ++ more), fresh⟩
      (.plain scanned.text) ⟨scanned.rest, scanned.fresh⟩ := by
  have starts := startsPlain_of_plainly own line column more
  obtain ⟨c, rest, rfl, solid, mark, -⟩ := own.head
  have bracket : c ≠ '[' ∧ c ≠ '\x7b' := by
    constructor <;>
    · rintro rfl
      exact mark (by decide)
  simp only [leadingMarks, List.mem_cons, not_or] at mark
  rw [List.cons_append] at starts boundary read ⊢
  rw [place_cons (isBreak_of_isSolid solid)] at starts boundary read ⊢
  refine content_leaf bracket.1 bracket.2 (.bind (Runs.rest _) (.bind here ?_))
  simp only [boundary, Bool.false_eq_true, if_false]
  split
  case h_1 | h_2 | h_3 => simp_all
  case h_4 =>
    rw [if_neg (by simp [mark])]
    exact .bind (require starts _) (.bind (accept read _) (pure _ _))

theorem content_text {scan : List Placed → Option Scanned} (own : scanner? least c = some scan)
    (inside : 0 < column) (read : scan (place line (column + 1) cs) = some scanned) :
    Runs (content (fuel + 1) false least false) ⟨place line column (c :: cs), fresh⟩
      (.text scanned.text) ⟨scanned.rest, scanned.fresh⟩ := by
  have boundary := atBoundary_of_column line inside (c :: cs)
  have marks : c ∈ ['"', '\'', '|'] := by
    unfold scanner? at own
    split at own
    case h_4 => cases own
    all_goals simp
  have unbroken : isBreak c = false := by fin_cases marks <;> rfl
  rw [place_cons unbroken] at boundary ⊢
  refine content_leaf (by fin_cases marks <;> decide) (by fin_cases marks <;> decide)
    (.bind (Runs.rest _) (.bind here ?_))
  simp only [boundary, Bool.false_eq_true, if_false]
  unfold scanner? at own
  split at own <;> cases own <;> exact .bind (accept read _) (pure _ _)

theorem content_emptyList : Runs (content (fuel + 2) false least false)
    ⟨place line column ('[' :: ']' :: cs), fresh⟩ (.seq [])
    ⟨place line (column + 2) cs, false⟩ := by
  rw [place_cons (by decide), place_cons (by decide), content]
  refine .bind here ?_
  rw [if_pos rfl]
  refine .bind drop (.bind ?_ (pure _ _))
  rw [flowItems]
  refine .bind (skip true _) (.bind (rest _) ?_)
  exact .bind drop (pure _ _)

theorem content_emptyMap : Runs (content (fuel + 2) false least false)
    ⟨place line column ('\x7b' :: '\x7d' :: cs), fresh⟩ (.map [])
    ⟨place line (column + 2) cs, false⟩ := by
  rw [place_cons (by decide), place_cons (by decide), content]
  refine .bind here ?_
  rw [if_neg (show ('\x7b' : Char) ≠ '[' by decide), if_pos rfl]
  refine .bind drop (.bind ?_ (pure _ _))
  rw [flowEntries]
  refine .bind (skip true _) (.bind (rest _) ?_)
  exact .bind drop (pure _ _)

end Runs

/-! ### Nodes of a block -/

namespace Runs

variable {least line column fuel : Nat} {cs : List Char} {before : List Placed}
  {fresh fresh' belowKey : Bool} {n : Node} {g g' : Gap}

theorem properties_opens (own : Opens cs) : Runs (properties false) ⟨place line column cs, fresh⟩
    .none ⟨place line column cs, fresh⟩ := by
  obtain ⟨c, rest, rfl, solid, anchor, tag⟩ := own.head
  have anchor : Placed.startsWith (place line column (c :: rest)) '&' = false := by
    simpa [place, Placed.startsWith] using anchor
  have tag : Placed.startsWith (place line column (c :: rest)) '!' = false := by
    simpa [place, Placed.startsWith] using tag
  have none : Runs (property false) ⟨place line column (c :: rest), fresh⟩ .none
      ⟨place line column (c :: rest), fresh⟩ := by
    refine .bind (Runs.rest _) ?_
    rw [anchor, tag]
    exact pure _ _
  exact .bind none (pure _ _)

/-- A node that is not a list comes from its content, and is a key of a map if a colon follows. -/
theorem blockNode_opens (own : Opens cs)
    (boundary : Placed.atBoundary (place line column cs) = false)
    (gap : skipGap false false fresh before = ⟨place line column cs, fresh'⟩) (le : least ≤ column)
    (read : Runs (content (fuel + 1) false least false) ⟨place line column cs, fresh'⟩ n g)
    {colon : Bool} {after : Gap} (next : skipGap false false g.fresh g.rest = after)
    (colon? : ∀ c, Runs (atColon false ⟨c, line, column⟩) after colon after) {m : Node}
    (finish : if fresh' && colon then
        ∃ es, m = .map es ∧ Runs (blockEntries fuel column n false) after es g'
      else m = n ∧ g' = after) :
    Runs (blockNode (fuel + 1) least belowKey .none) ⟨before, fresh⟩ m g' := by
  have properties : Runs (properties false) ⟨place line column cs, fresh'⟩ .none _ :=
    properties_opens own
  have dash := own.dash line column
  have question := own.question line column
  obtain ⟨c, rest, rfl, solid, -⟩ := own.head
  rw [place_cons (isBreak_of_isSolid solid)] at properties dash question boundary gap read
  rw [blockNode]
  refine .bind (skip false _) ?_
  rw [gap]
  refine .bind (Runs.rest _) (.bind (outside_cons (b := false) ?_) ?_)
  · simp [boundary, le]
  simp only [Bool.false_eq_true, if_false, dash, question]
  refine .bind here (.get fun _ _ => .bind properties
    (.get fun _ _ => .bind (Runs.rest _) (.bind (atColon_cons rfl) (.bind read ?_))))
  refine .bind (skip false _) ?_
  rw [next]
  refine .bind (colon? c) ?_
  cases key : fresh' && colon with
  | true =>
    rw [key, if_pos rfl] at finish
    obtain ⟨es, rfl, entries⟩ := finish
    rw [if_pos rfl]
    exact .bind (dress_none n after) (.bind entries (dress_none _ g'))
  | false =>
    rw [key, if_neg Bool.false_ne_true] at finish
    obtain ⟨rfl, rfl⟩ := finish
    rw [if_neg Bool.false_ne_true]
    exact .bind (merge_none _) (dress_none _ _)

end Runs

end GatewayPlan.Yaml.Reading
