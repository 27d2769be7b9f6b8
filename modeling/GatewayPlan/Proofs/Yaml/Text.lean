import GatewayPlan.Proofs.Tree.Faithful
import GatewayPlan.Proofs.Yaml.Document

/-!
# Written texts are read back

What is written consists of characters that are shown as they are. So all of it may stand in a text,
and it has no line breaks that would be read as others. The text of a map is one document without
directives, and is read as a tree that stands for the map.
-/

namespace GatewayPlan.Yaml

open GatewayPlan.Tree Reading

def Shown (cs : List Char) : Prop :=
  ∀ c ∈ cs, isShown c = true

namespace Shown

variable {cs ds : List Char} {c : Char}

theorem nil : Shown [] :=
  nofun

theorem cons (h : isShown c = true) (rest : Shown cs) : Shown (c :: cs) :=
  List.forall_mem_cons.mpr ⟨h, rest⟩

theorem append (h : Shown cs) (h' : Shown ds) : Shown (cs ++ ds) :=
  fun c mem => (List.mem_append.mp mem).elim (h c) (h' c)

theorem of_append_right (h : Shown (cs ++ ds)) : Shown ds :=
  fun c mem => h c (List.mem_append_right cs mem)

theorem spaces (n : Nat) : Shown (List.replicate n ' ') := by
  intro c mem
  rw [List.eq_of_mem_replicate mem]
  decide

end Shown

/-! ### Scalars -/

theorem shown_singleRest {margin : List Char} (own : Shown margin) {cs : List Char} (h : Shown cs)
    (broken : Bool) : Shown (singleRest margin broken cs) := by
  have lead : ∀ b : Bool, Shown (if b then margin else []) := by
    intro b
    cases b with
    | true => exact own
    | false => exact .nil
  induction cs generalizing broken with
  | nil => exact (lead broken).append (.cons rfl .nil)
  | cons c cs ih =>
    have first := h c List.mem_cons_self
    have rest : Shown cs := fun c mem => h c (List.mem_cons_of_mem _ mem)
    rw [singleRest]
    split
    case isTrue => exact .cons first (ih rest true)
    case isFalse =>
      refine ((lead broken).append ?_).append (ih rest false)
      split
      · exact .cons rfl (.cons rfl .nil)
      · exact .cons first .nil

theorem shown_blockRest {margin : List Char} (own : Shown margin) {cs : List Char} (h : Shown cs)
    (broken : Bool) : Shown (blockRest margin broken cs) := by
  induction cs generalizing broken with
  | nil =>
    cases broken with
    | true => exact .nil
    | false => exact .cons rfl .nil
  | cons c cs ih =>
    have first := h c List.mem_cons_self
    have rest : Shown cs := fun c mem => h c (List.mem_cons_of_mem _ mem)
    rw [blockRest]
    split
    case isTrue => exact .cons first (ih rest true)
    case isFalse =>
      refine Shown.append ?_ (.cons first (ih rest false))
      cases broken with
      | true => exact own
      | false => exact .nil

theorem shown_hexDigits {n : Nat} (h : n < 0xA0) : (hexDigits 2 n).all isShown = true := by
  revert h n
  decide +kernel

theorem shown_escape {c : Char} (h : (!isShown c || isBreak c || c = '"' || c = '\\') = true) :
    Shown (escape c) := by
  rcases escape_cases h with special | ⟨code, hidden⟩
  · exact List.all_eq_true.mp (by fin_cases special <;> rfl)
  · rw [code]
    refine .cons rfl ?_
    rcases not_isShown hidden with small | big
    · rw [escapeCode, if_pos (by omega)]
      exact .cons rfl (List.all_eq_true.mp (shown_hexDigits small))
    · rw [escapeCode, if_neg (by omega)]
      refine .cons rfl (List.all_eq_true.mp ?_)
      rcases big with e | e | e <;> rw [e] <;> decide +kernel

theorem shown_doubleChar (c : Char) : Shown (doubleChar c) := by
  rw [doubleChar]
  split
  case isTrue h => exact shown_escape h
  case isFalse h =>
    simp only [Bool.or_eq_true, not_or, Bool.not_eq_true', Bool.not_eq_false] at h
    exact .cons h.1.1.1 .nil

theorem shown_double (s : String) : Shown (double s).toList := by
  have inner : Shown (s.toList.flatMap doubleChar) := by
    intro c mem
    obtain ⟨d, -, own⟩ := List.mem_flatMap.mp mem
    exact shown_doubleChar d c own
  have text : (double s).toList = '"' :: (s.toList.flatMap doubleChar ++ ['"']) := by
    simp [double]
  rw [text]
  exact .cons rfl (inner.append (.cons rfl .nil))

theorem shown_of_not_isStrange {cs : List Char} (h : isStrange cs = false) : Shown cs := by
  simp only [isStrange, Bool.or_eq_false_iff, Bool.not_eq_false'] at h
  exact List.all_eq_true.mp h.1

theorem shown_of_plain {s : String} (style : Style.ofText s = .plain) : Shown s.toList := by
  have fits := style_fits s
  rw [style] at fits
  simp only [fitsPlain, Bool.and_eq_true, Bool.not_eq_true'] at fits
  exact shown_of_not_isStrange fits.1.1.1.1.1.1

theorem shown_textLine (indent : Nat) (s : String) : Shown (textLine indent s).toList := by
  have line : Shown ['\n'] := .cons rfl .nil
  have fits := style_fits s
  unfold textLine
  split
  case h_1 style =>
    rw [String.toList_append]
    exact (shown_of_plain style).append line
  case h_2 style =>
    rw [style] at fits
    simp only [fitsSingle, Bool.and_eq_true, Bool.not_eq_true'] at fits
    have own := shown_singleRest (.spaces indent) (shown_of_not_isStrange fits.2.1) false
    have text : (single indent s ++ "\n").toList =
        '\'' :: (singleRest (List.replicate indent ' ') false s.toList ++ ['\n']) := by
      simp [single]
    rw [text]
    exact .cons rfl (own.append line)
  case h_3 =>
    rw [String.toList_append]
    exact (shown_double s).append line
  case h_4 style =>
    rw [style] at fits
    simp only [fitsBlock, Bool.and_eq_true, Bool.not_eq_true'] at fits
    have own := shown_blockRest (.spaces indent) (shown_of_not_isStrange fits.2.1) true
    have hints : Shown (blockHints s.toList).toList := by
      rw [blockHints_toList]
      refine .append ?_ ?_
      · split
        · exact .cons rfl .nil
        · exact .nil
      · cases chompingOf s.toList <;> exact List.all_eq_true.mp rfl
    have text : (block indent s).toList = '|' :: ((blockHints s.toList).toList ++
        '\n' :: blockRest (List.replicate indent ' ') true s.toList) := by
      simp [block]
    rw [text]
    exact .cons rfl (hints.append (.cons rfl own))

/-! ### Trees -/

/-- What is written of a tree is shown wherever it stands. -/
def ShownTree (n : Node) : Prop :=
  ∀ indent, Shown (value indent n).toList ∧ Shown (item indent n).toList

variable {depth : Nat} {n : Node}

theorem shown_items {ns : List Node} (each : ∀ n ∈ ns, ShownTree n) (indent : Nat) :
    Shown (items indent ns).toList := by
  induction ns with
  | nil => exact .nil
  | cons n ns ih =>
    rw [toList_items_cons]
    exact (Shown.spaces indent).append (.cons rfl (((each n List.mem_cons_self) indent).2.append
      (ih fun n mem => each n (List.mem_cons_of_mem _ mem))))

theorem shown_entries {ws : List (String × Node)} (names : ∀ w ∈ ws, IsName w.1)
    (each : ∀ w ∈ ws, ShownTree w.2) (indent : Nat) :
    Shown (entries indent (named ws)).toList := by
  induction ws with
  | nil => exact .nil
  | cons w ws ih =>
    have name := names w List.mem_cons_self
    have rest := ih (fun w mem => names w (List.mem_cons_of_mem _ mem))
      fun w mem => each w (List.mem_cons_of_mem _ mem)
    have text := toList_entries_append name indent w.2 ws []
    rw [List.append_nil] at text
    rw [text, entryText, List.append_nil]
    exact (Shown.spaces indent).append ((shown_of_plain name.2.1).append
      (.cons rfl (((each w List.mem_cons_self) indent).1.append rest)))

theorem isShown_of_isDigit {c : Char} (digit : c.isDigit = true) : isShown c = true := by
  simp only [Char.isDigit, Bool.and_eq_true, decide_eq_true_eq, UInt32.le_iff_toNat_le] at digit
  have low : 48 ≤ c.toNat := digit.1
  have high : c.toNat ≤ 57 := digit.2
  have range : 0x20 ≤ c.toNat ∧ c.toNat ≤ 0x7E := by omega
  simp [isShown, range]

theorem shown_leaf (h : n.Written IsName depth) (indent : Nat) : Shown (leaf indent n).toList := by
  cases h with
  | null => exact List.all_eq_true.mp (by decide : " null\n".toList.all isShown = true)
  | bool b =>
    cases b with
    | true => exact List.all_eq_true.mp (by decide : " true\n".toList.all isShown = true)
    | false => exact List.all_eq_true.mp (by decide : " false\n".toList.all isShown = true)
  | @natural _ n =>
    have text : (leaf indent (.num (.natural n))).toList =
        ' ' :: (Nat.toDigits 10 n ++ ['\n']) := by
      simp [leaf, Numeral.text]
    rw [text]
    exact .cons rfl (.append (fun c mem => isShown_of_isDigit (Decimal.isDigit_of_mem mem))
      (.cons rfl .nil))
  | text s =>
    have text : (leaf indent (.text s)).toList = ' ' :: (textLine (indent + 2) s).toList := by
      simp [leaf]
    rw [text]
    exact .cons rfl (shown_textLine _ s)
  | seq => exact List.all_eq_true.mp (by decide : " []\n".toList.all isShown = true)
  | fields => exact List.all_eq_true.mp (by decide : " \x7b\x7d\n".toList.all isShown = true)

theorem OnLine.shown (text : OnLine n) (h : n.Written IsName depth) : ShownTree n := by
  intro indent
  rw [(text indent).1, (text indent).2]
  exact ⟨shown_leaf h indent, shown_leaf h indent⟩

/-- What is written of a tree is shown as it is. -/
theorem shownTree_of_written (h : n.Written IsName depth) : ShownTree n := by
  induction h with
  | @null depth =>
    have own : Node.Written IsName depth .null := .null
    exact OnLine.shown (by simp [OnLine, value, item]) own
  | @bool depth b =>
    have own : Node.Written IsName depth (.bool b) := .bool b
    exact OnLine.shown (by simp [OnLine, value, item]) own
  | @natural depth n fits =>
    have own : Node.Written IsName depth (.num (.natural n)) := .natural fits
    exact OnLine.shown (by simp [OnLine, value, item]) own
  | @text depth s =>
    have own : Node.Written IsName depth (.text s) := .text s
    exact OnLine.shown (by simp [OnLine, value, item]) own
  | @seq depth ns own ih =>
    cases ns with
    | nil => exact OnLine.shown (by simp [OnLine, value, item]) (.seq own)
    | cons n ns =>
      have rest : ∀ n ∈ ns, ShownTree n := fun n mem => ih n (List.mem_cons_of_mem _ mem)
      intro indent
      rw [toList_value_seq, toList_item_seq]
      exact ⟨.cons rfl (shown_items ih indent), .cons rfl (.cons rfl
        ((ih n List.mem_cons_self (indent + 2)).2.append (shown_items rest (indent + 2))))⟩
  | @fields depth ws names own distinct ih =>
    cases ws with
    | nil =>
      exact OnLine.shown (by simp [OnLine, Node.fields, value, item]) (.fields names own distinct)
    | cons w ws =>
      intro indent
      have all := shown_entries names ih (indent + 2)
      rw [Node.fields, List.map_cons, toList_value_map, toList_item_map]
      refine ⟨.cons rfl all, .cons rfl ?_⟩
      rw [named, List.map_cons, toList_entries_cons] at all
      exact all.of_append_right

/-! ### Documents -/

theorem isAllowed_of_isShown {c : Char} (h : isShown c = true) : isAllowed c = true := by
  simp only [isShown, Bool.or_eq_true, Bool.and_eq_true, decide_eq_true_eq] at h
  simp only [isAllowed, Bool.or_eq_true, Bool.and_eq_true, decide_eq_true_eq]
  rcases h with ((rfl | h) | h) | h
  · decide
  · omega
  · omega
  · omega

theorem unifyBreaks_eq {cs : List Char} (h : Shown cs) : unifyBreaks cs = cs := by
  induction cs with
  | nil => rfl
  | cons c cs ih =>
    have first := h c List.mem_cons_self
    have carriage : c ≠ '\r' := by
      rintro rfl
      exact absurd first (by decide)
    have next : c ≠ '\u0085' := by
      rintro rfl
      exact absurd first (by decide)
    unfold unifyBreaks
    split
    case h_1 eq => exact absurd (List.cons.inj eq).1 carriage
    case h_2 eq =>
      cases eq
      rw [if_neg (by simp [carriage, next]), ih fun c mem => h c (List.mem_cons_of_mem _ mem)]
    case h_3 eq => cases eq

theorem ofText?_shown {s : String} (h : Shown s.toList) :
    Placed.ofText? s = some (place 0 0 s.toList) := by
  have order : ∀ rest, s.toList ≠ '\uFEFF' :: rest := by
    intro rest eq
    exact absurd (h '\uFEFF' (eq ▸ List.mem_cons_self)) (by decide)
  have allowed : s.toList.all isAllowed = true :=
    List.all_eq_true.mpr fun c mem => isAllowed_of_isShown (h c mem)
  unfold Placed.ofText?
  split
  case h_1 eq => exact absurd eq (order _)
  case h_2 => rw [if_pos allowed, unifyBreaks_eq h]

theorem directives_name {k : String} (name : IsName k) (more : List Char) (fuel : Nat) :
    Runs (Document.directives (fuel + 1) .none) ⟨place 0 0 (k.toList ++ more), true⟩ .none
      ⟨place 0 0 (k.toList ++ more), true⟩ := by
  obtain ⟨c, rest, own, solid, mark, -⟩ := name.plainly.head
  have percent : c ≠ '%' := by
    rintro rfl
    exact mark (by decide)
  have gap := skipGap_solid solid true 0 0 (rest ++ more)
  rw [own, List.cons_append]
  rw [place_cons (isBreak_of_isSolid solid)] at gap ⊢
  rw [Document.directives]
  refine .bind (.skip false _) ?_
  rw [gap]
  refine .bind (.rest _) ?_
  rw [if_neg (by simp [percent])]
  exact .pure _ _

theorem finish_end (fuel : Nat) : Runs (Document.finish (fuel + 1)) ⟨[], true⟩ () ⟨[], true⟩ := by
  rw [Document.finish]
  exact .bind (.skip false _) (.bind (.rest _) (.pure _ _))

/-- A document that starts with a name has no directives and ends with its map. -/
theorem read_name {k : String} (name : IsName k) (more : List Char) {fuel : Nat}
    (read : Runs (blockNode (fuel + 1) 0 false .none) ⟨place 0 0 (k.toList ++ more), true⟩ n
      ⟨[], true⟩) :
    (Document.read (fuel + 1)) ⟨place 0 0 (k.toList ++ more), true, #[], .core⟩ =
      some (n, ⟨[], true, #[], .core⟩) := by
  have boundary := (name.token more).inside 0 0
  have marker : Placed.atMarker '-' (place 0 0 (k.toList ++ more)) = false := by
    rw [Placed.atBoundary, Bool.or_eq_false_iff] at boundary
    exact boundary.1
  have some : (place 0 0 (k.toList ++ more)).isEmpty = false := by
    obtain ⟨c, rest, own, -⟩ := name.plainly.head
    simp [own, place]
  have given : (!(Directives.none.isGiven || (place 0 0 (k.toList ++ more)).isEmpty ||
      Placed.atBoundary (place 0 0 (k.toList ++ more)))) = true := by
    rw [some, boundary]
    rfl
  rw [Document.read, run_bind (directives_name name more fuel #[] .core),
    run_bind (Runs.rest _ #[] .core)]
  simp only [marker, Bool.false_eq_true, if_false, given]
  refine (run_bind (x := ()) rfl).trans ((run_bind (x := ()) rfl).trans ?_)
  exact (run_bind (read #[] .core)).trans (run_bind (finish_end fuel #[] .core))

/-- A written map is read back from its text as a tree that stands for it. -/
theorem ofText?_text (h : n.Written IsName Document.depthLimit) {e : Node × Node}
    {es : List (Node × Node)} (own : n = .map (e :: es)) :
    ∃ m, Document.ofText? (text n) = some m ∧ m.StandsFor n := by
  cases h with
  | @fields _ ws names each distinct =>
    cases ws with
    | nil => cases own
    | cons w ws =>
      obtain ⟨k, v⟩ := w
      have name : IsName k := names _ List.mem_cons_self
      have token := name.token (entryText 0 v ws [])
      have whole : text (.fields ((k, v) :: ws)) = entries 0 (named ((k, v) :: ws)) := rfl
      have content : (text (.fields ((k, v) :: ws))).toList = k.toList ++ entryText 0 v ws [] := by
        have listed := toList_entries_append name 0 v ws []
        rwa [List.append_nil, ← whole, List.replicate_zero, List.nil_append] at listed
      have shown : Shown (text (.fields ((k, v) :: ws))).toList :=
        shown_entries names (fun w mem => shownTree_of_written (each w mem)) 0
      have gap : skipGap false false true (place 0 0 (k.toList ++ entryText 0 v ws [])) =
          ⟨place 0 0 (k.toList ++ entryText 0 v ws []), true⟩ := by
        obtain ⟨c, rest, eq, solid⟩ := token.solid
        rw [eq]
        exact skipGap_solid solid true 0 0 rest
      obtain ⟨m, line, -, shows, read⟩ := blockNode_entries
        (fun w mem => ⟨names w mem, reads_of_written (each w mem)⟩) .nothing (Nat.le_refl 0) gap
        (8 * (k.toList ++ entryText 0 v ws []).length + 15)
        (by rw [List.length_append]; omega) false
      refine ⟨m, ?_, shows.standsFor⟩
      have document := read_name name (entryText 0 v ws []) read
      rw [Document.ofText?, ofText?_shown shown, content]
      simp only [Option.bind_eq_bind, Option.bind_some, length_place, StateT.run, document,
        Option.pure_def]
      exact congrArg some shows.limited
  | _ => cases own

/-- A value is read back from the text of the map that it is written as. -/
theorem decode_text {α : Type} {c : Codec α} {x : α}
    (h : c.Faithful IsName Document.depthLimit x) {e : Node × Node} {es : List (Node × Node)}
    (own : c.encode x = .map (e :: es)) : decode c (text (c.encode x)) = .ok x := by
  obtain ⟨m, read, stands⟩ := ofText?_text h.written own
  rw [decode, read]
  exact h.reads _ m stands

end GatewayPlan.Yaml
