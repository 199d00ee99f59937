import Mathlib.Data.List.Chain
import Mathlib.Data.List.DropRight
import ShipitInference.Infer.Sanitizer

/-! What `optimizeTextContent` does to a text: it removes whitespace only, and returns the normal
form its three passes aim at, so a second pass changes nothing.
-/

namespace Shipit.Inference.Infer

open Shipit.Inference.Js

-----------------------------------------------------------------------------------------
-- The normal form
-----------------------------------------------------------------------------------------

/-- A space or a tab directly followed by a line terminator: what `/[ \t]+$/gm` removes. -/
def blankBeforeBreak (a b : Char) : Prop := (a = ' ' ∨ a = '\t') ∧ isLineTerminator b = true

instance : DecidableRel blankBeforeBreak := fun _ _ => inferInstanceAs (Decidable (_ ∧ _))

/-- No four line feeds with only whitespace between them. -/
def ShortBreaks (cs : List Char) : Prop :=
  ∀ w, List.IsInfix w cs → (∀ c ∈ w, isJsWhitespace c = true) → w.count '\n' < 4

/-- A text in the normal form of `optimizeTextContent`. -/
structure NormalText (cs : List Char) : Prop where
  noBlankBeforeBreak : cs.Chain' fun a b => ¬blankBeforeBreak a b
  shortBreaks : ShortBreaks cs
  startsVisible : ∀ c ∈ cs.head?, isJsWhitespace c = false
  endsVisible : ∀ c ∈ cs.getLast?, isJsWhitespace c = false

/-- The characters of a text that are not whitespace, in order. -/
def visible (cs : List Char) : List Char := cs.filter fun c => !isJsWhitespace c

theorem isJsWhitespace_of_blank {c : Char} (blank : c = ' ' ∨ c = '\t') : isJsWhitespace c = true := by
  rcases blank with rfl | rfl <;> decide

theorem isJsWhitespace_of_isLineTerminator {c : Char} (h : isLineTerminator c = true) :
    isJsWhitespace c = true := by
  simp only [isLineTerminator, Bool.or_eq_true, beq_iff_eq] at h
  rcases h with ((rfl | rfl) | rfl) | rfl <;> decide

theorem not_blankBeforeBreak_of_left {a b : Char} (h : ¬(a = ' ' ∨ a = '\t')) :
    ¬blankBeforeBreak a b := fun hab => h hab.1

theorem not_blankBeforeBreak_of_right {a b : Char} (h : isLineTerminator b = false) :
    ¬blankBeforeBreak a b := fun hab => absurd (h.symm.trans hab.2) Bool.false_ne_true

theorem not_blank_of_visible {c : Char} (h : isJsWhitespace c = false) : ¬(c = ' ' ∨ c = '\t') :=
  fun blank => by simp [isJsWhitespace_of_blank blank] at h

theorem not_isLineTerminator_of_visible {c : Char} (h : isJsWhitespace c = false) :
    isLineTerminator c = false := by
  cases lt : isLineTerminator c
  · rfl
  · simp [isJsWhitespace_of_isLineTerminator lt] at h

@[simp] theorem visible_append (xs ys : List Char) : visible (xs ++ ys) = visible xs ++ visible ys := by
  simp [visible]

theorem visible_eq_nil {cs : List Char} (h : ∀ c ∈ cs, isJsWhitespace c = true) : visible cs = [] :=
  List.filter_eq_nil_iff.2 fun c hc => by simp [h c hc]

theorem visible_cons (c : Char) (cs : List Char) :
    visible (c :: cs) = (if isJsWhitespace c then [] else [c]) ++ visible cs := by
  cases h : isJsWhitespace c <;> simp [visible, List.filter_cons, h]

-----------------------------------------------------------------------------------------
-- A separator splits the stretches of whitespace
-----------------------------------------------------------------------------------------

/-- A piece of `a ++ c :: b` that does not contain `c` lies in `a` or in `b`. -/
theorem infix_append_cons {w a b : List Char} {c : Char} (hw : List.IsInfix w (a ++ c :: b))
    (hc : c ∉ w) : List.IsInfix w a ∨ List.IsInfix w b := by
  obtain ⟨s, t, h⟩ := hw
  rw [List.append_assoc, List.append_eq_append_iff] at h
  rcases h with ⟨a', rfl, h⟩ | ⟨c', rfl, h⟩
  · rw [List.append_eq_append_iff] at h
    rcases h with ⟨a'', rfl, rfl⟩ | ⟨c'', rfl, h⟩
    · exact .inl ⟨s, a'', by simp⟩
    · cases c'' with
      | nil => exact .inl ⟨s, [], by simp⟩
      | cons d _ => cases (List.cons.inj h).1; simp at hc
  · cases c' with
    | nil =>
      cases w with
      | nil => exact .inl List.nil_infix
      | cons d _ => cases (List.cons.inj h).1; simp at hc
    | cons d c'' => exact .inr ⟨c'', t, by simpa using (List.cons.inj h).2.symm⟩

theorem ShortBreaks.mono {cs cs' : List Char} (h : ShortBreaks cs) (sub : List.IsInfix cs' cs) :
    ShortBreaks cs' := fun w hw ws => h w (hw.trans sub) ws

theorem shortBreaks_of_count {run : List Char} (few : run.count '\n' < 4) : ShortBreaks run := fun _ hw _ => (hw.count_le _).trans_lt few

theorem shortBreaks_append_cons {a b : List Char} {c : Char} (hc : isJsWhitespace c = false)
    (ha : ShortBreaks a) (hb : ShortBreaks b) : ShortBreaks (a ++ c :: b) := fun w hw ws =>
  (infix_append_cons hw fun mem => by simp [ws c mem] at hc).elim (ha w · ws) (hb w · ws)

-----------------------------------------------------------------------------------------
-- Pass 1: trailing spaces and tabs
-----------------------------------------------------------------------------------------

section StripTrailingBlanks

variable {pending : List Char} (blanks : ∀ c ∈ pending, c = ' ' ∨ c = '\t')
include blanks

theorem visible_stripTrailingBlanks (cs : List Char) :
    visible (stripTrailingBlanks pending cs) = visible cs := by
  induction cs generalizing pending with
  | nil => rfl
  | cons c rest ih =>
    simp only [stripTrailingBlanks]
    split
    case isTrue blank =>
      rw [ih (List.forall_mem_append.2 ⟨blanks, List.forall_mem_singleton.2 blank⟩), visible_cons,
        isJsWhitespace_of_blank blank]
      rfl
    case isFalse =>
      split
      case isTrue lt =>
        rw [visible_cons, visible_cons, ih (by simp)]
      case isFalse =>
        rw [visible_append, visible_eq_nil fun c hc => isJsWhitespace_of_blank (blanks c hc),
          visible_cons, visible_cons, ih (by simp), List.nil_append]

/-- The first pass leaves no space or tab before a line terminator. -/
theorem chain_stripTrailingBlanks (cs : List Char) :
    (stripTrailingBlanks pending cs).Chain' fun a b => ¬blankBeforeBreak a b := by
  induction cs generalizing pending with
  | nil => exact List.chain'_nil
  | cons c rest ih =>
    simp only [stripTrailingBlanks]
    split
    case isTrue blank => exact ih (List.forall_mem_append.2 ⟨blanks, List.forall_mem_singleton.2 blank⟩)
    case isFalse notBlank =>
      have head : (c :: stripTrailingBlanks [] rest).Chain' fun a b => ¬blankBeforeBreak a b :=
        (ih (by simp)).cons' fun _ _ => not_blankBeforeBreak_of_left notBlank
      split
      case isTrue => exact head
      case isFalse notBreak =>
        refine List.chain'_append.2 ⟨?_, head, fun _ _ y hy => ?_⟩
        · exact List.Pairwise.chain' (List.pairwise_of_forall_mem_list fun _ _ b hb =>
            not_blankBeforeBreak_of_right (by rcases blanks b hb with rfl | rfl <;> rfl))
        · cases Option.mem_def.1 hy
          exact not_blankBeforeBreak_of_right (by simpa using notBreak)

/-- A blank run that a line terminator follows would break the normal form. -/
theorem eq_nil_of_chain_break {c : Char} {rest : List Char} (lt : isLineTerminator c = true)
    (chain : (pending ++ c :: rest).Chain' fun a b => ¬blankBeforeBreak a b) : pending = [] := by
  cases last : pending.getLast? with
  | none => exact List.getLast?_eq_none_iff.1 last
  | some x =>
    exact absurd ⟨blanks x (List.mem_of_getLast?_eq_some last), lt⟩
      ((List.chain'_append.1 chain).2.2 x last c rfl)

/-- On a text already in normal form, the first pass changes nothing. -/
theorem stripTrailingBlanks_of_normal (cs : List Char)
    (chain : (pending ++ cs).Chain' fun a b => ¬blankBeforeBreak a b)
    (ends : ∀ c ∈ (pending ++ cs).getLast?, isJsWhitespace c = false) :
    stripTrailingBlanks pending cs = pending ++ cs := by
  induction cs generalizing pending with
  | nil =>
    cases last : pending.getLast? with
    | none => simp [stripTrailingBlanks, List.getLast?_eq_none_iff.1 last]
    | some x =>
      have := ends x (by simpa using last)
      simp [isJsWhitespace_of_blank (blanks x (List.mem_of_getLast?_eq_some last))] at this
  | cons c rest ih =>
    simp only [stripTrailingBlanks]
    have tail : ∀ x ∈ rest.getLast?, isJsWhitespace x = false := fun x hx =>
      ends x (by simp [List.getLast?_cons, Option.mem_def.1 hx])
    split
    case isTrue blank =>
      simpa using @ih (pending ++ [c]) (List.forall_mem_append.2 ⟨blanks, List.forall_mem_singleton.2 blank⟩)
        (by simpa using chain) (by simpa using ends)
    case isFalse =>
      split
      case isTrue lt =>
        obtain rfl := eq_nil_of_chain_break blanks lt chain
        rw [@ih [] (by simp) chain.tail tail]
        rfl
      case isFalse =>
        rw [@ih [] (by simp) (List.chain'_cons'.1 chain.right_of_append).2 tail]
        rfl

end StripTrailingBlanks

-----------------------------------------------------------------------------------------
-- Pass 2: runs of blank lines
-----------------------------------------------------------------------------------------

/-- A line feed splits a text at its first occurrence. -/
theorem takeWhile_ne_append {l : List Char} {a : Char} (h : a ∈ l) :
    ∃ rest, l = l.takeWhile (· ≠ a) ++ a :: rest := by
  induction l with
  | nil => cases h
  | cons x xs ih =>
    by_cases hx : x = a
    · exact ⟨xs, by simp [hx]⟩
    · obtain ⟨rest, hrest⟩ := ih ((List.mem_cons.1 h).resolve_left (Ne.symm hx))
      exact ⟨rest, by simpa [List.takeWhile_cons, hx] using hrest⟩

theorem count_takeWhile_ne (l : List Char) : (l.takeWhile (· ≠ '\n')).count '\n' = 0 :=
  List.count_eq_zero.2 fun h => by simpa using List.mem_takeWhile_imp h

theorem mem_collapseRun {run : List Char} {c : Char} (h : c ∈ collapseRun run) :
    c ∈ run ∨ c = '\n' := by
  unfold collapseRun at h
  split at h
  · simp only [List.mem_append, List.mem_reverse] at h
    rcases h with (h | h) | h
    · exact .inl ((List.takeWhile_sublist _).subset h)
    · exact .inr (by simpa using h)
    · exact .inl (List.mem_reverse.1 ((List.takeWhile_sublist _).subset h))
  · exact .inl h

theorem count_collapseRun_lt (run : List Char) : (collapseRun run).count '\n' < 4 := by
  unfold collapseRun
  split
  · simp only [List.count_append, List.count_reverse, count_takeWhile_ne]
    decide
  · omega

theorem collapseRun_of_lt {run : List Char} (few : run.count '\n' < 4) : collapseRun run = run := by
  simp [collapseRun, Nat.not_le.2 few]

/-- Collapsing a run keeps the text before its first line feed and after its last, which the
first pass has already cleared of spaces and tabs before a line terminator. -/
theorem chain_collapseRun {run : List Char} (chain : run.Chain' fun a b => ¬blankBeforeBreak a b) :
    (collapseRun run).Chain' fun a b => ¬blankBeforeBreak a b := by
  unfold collapseRun
  split
  case isFalse => exact chain
  case isTrue many =>
    obtain ⟨rest, split_run⟩ := takeWhile_ne_append (List.count_pos_iff.1 (by omega : 0 < run.count '\n'))
    have upTo := split_run ▸ chain
    have after : List.IsSuffix ((run.reverse.takeWhile (· ≠ '\n')).reverse) run :=
      List.reverse_prefix.1 (by simpa using List.takeWhile_prefix _)
    have breaks : ['\n', '\n', '\n'].Chain' fun a b => ¬blankBeforeBreak a b :=
      List.Pairwise.chain' (List.pairwise_of_forall_mem_list fun a ha _ _ =>
        not_blankBeforeBreak_of_left (by simp at ha; simp [ha]))
    refine List.chain'_append.2 ⟨List.chain'_append.2 ⟨upTo.left_of_append, breaks, ?_⟩,
      List.Chain'.infix chain after.isInfix, fun x hx _ _ => ?_⟩
    · intro x hx y hy
      cases Option.mem_def.1 hy
      exact (List.chain'_append.1 upTo).2.2 x hx '\n' rfl
    · simp only [List.getLast?_append, List.getLast?_cons_cons, List.getLast?_singleton,
        Option.or_some, Option.mem_def, Option.some.injEq] at hx
      exact not_blankBeforeBreak_of_left (by rw [← hx]; decide)

/-- The second pass leaves at most three line feeds in a stretch of whitespace. -/
theorem shortBreaks_collapseBlankLines (run cs : List Char) :
    ShortBreaks (collapseBlankLines run cs) := by
  induction cs generalizing run with
  | nil => exact shortBreaks_of_count (count_collapseRun_lt run)
  | cons c rest ih =>
    simp only [collapseBlankLines]
    split
    case isTrue => exact ih _
    case isFalse visibleC =>
      exact shortBreaks_append_cons (by simpa using visibleC)
        (shortBreaks_of_count (count_collapseRun_lt run)) (ih [])

section CollapseBlankLines

variable {run : List Char} (ws : ∀ c ∈ run, isJsWhitespace c = true)
include ws

theorem whitespace_collapseRun : ∀ c ∈ collapseRun run, isJsWhitespace c = true := fun c hc =>
  (mem_collapseRun hc).elim (ws c) fun h => h ▸ rfl

theorem visible_collapseBlankLines (cs : List Char) :
    visible (collapseBlankLines run cs) = visible cs := by
  induction cs generalizing run with
  | nil => exact visible_eq_nil (whitespace_collapseRun ws)
  | cons c rest ih =>
    simp only [collapseBlankLines]
    split
    case isTrue space =>
      rw [ih (List.forall_mem_append.2 ⟨ws, List.forall_mem_singleton.2 space⟩), visible_cons, space]
      rfl
    case isFalse =>
      rw [visible_append, visible_eq_nil (whitespace_collapseRun ws), visible_cons, visible_cons,
        ih (by simp), List.nil_append]

/-- The second pass keeps the first pass's guarantee. -/
theorem chain_collapseBlankLines (cs : List Char)
    (chain : (run ++ cs).Chain' fun a b => ¬blankBeforeBreak a b) :
    (collapseBlankLines run cs).Chain' fun a b => ¬blankBeforeBreak a b := by
  induction cs generalizing run with
  | nil => exact chain_collapseRun (by simpa using chain)
  | cons c rest ih =>
    simp only [collapseBlankLines]
    split
    case isTrue space =>
      exact ih (List.forall_mem_append.2 ⟨ws, List.forall_mem_singleton.2 space⟩) (by simpa using chain)
    case isFalse visibleC =>
      have hc : isJsWhitespace c = false := by simpa using visibleC
      refine List.chain'_append.2 ⟨chain_collapseRun chain.left_of_append, ?_, fun _ _ y hy => ?_⟩
      · exact (@ih [] (by simp) (List.chain'_cons'.1 chain.right_of_append).2).cons' fun _ _ =>
          not_blankBeforeBreak_of_left (not_blank_of_visible hc)
      · cases Option.mem_def.1 hy
        exact not_blankBeforeBreak_of_right (not_isLineTerminator_of_visible hc)

/-- On a text already in normal form, the second pass changes nothing. -/
theorem collapseBlankLines_of_short (cs : List Char) (short : ShortBreaks (run ++ cs)) :
    collapseBlankLines run cs = run ++ cs := by
  induction cs generalizing run with
  | nil => simpa using collapseRun_of_lt (short run ⟨[], [], by simp⟩ ws)
  | cons c rest ih =>
    simp only [collapseBlankLines]
    split
    case isTrue space =>
      simpa using @ih (run ++ [c]) (List.forall_mem_append.2 ⟨ws, List.forall_mem_singleton.2 space⟩)
        (by simpa using short)
    case isFalse =>
      rw [collapseRun_of_lt (short run ⟨[], c :: rest, rfl⟩ ws),
        @ih [] (by simp) (short.mono ⟨run ++ [c], [], by simp⟩)]
      rfl

end CollapseBlankLines

-----------------------------------------------------------------------------------------
-- Pass 3: trim
-----------------------------------------------------------------------------------------

theorem trimChars_eq_rdropWhile (cs : List Char) :
    trimChars cs = (cs.dropWhile isJsWhitespace).rdropWhile isJsWhitespace := rfl

theorem isInfix_trimChars (cs : List Char) : List.IsInfix (trimChars cs) cs :=
  ( List.rdropWhile_prefix _ _).isInfix.trans (List.dropWhile_suffix _).isInfix

theorem visible_reverse (cs : List Char) : visible cs.reverse = (visible cs).reverse :=
  List.filter_reverse _ _

theorem visible_dropWhile (cs : List Char) : visible (cs.dropWhile isJsWhitespace) = visible cs := by
  conv_rhs => rw [← List.takeWhile_append_dropWhile isJsWhitespace cs]
  rw [visible_append, visible_eq_nil fun _ hc => List.mem_takeWhile_imp hc, List.nil_append]

theorem visible_trimChars (cs : List Char) : visible (trimChars cs) = visible cs := by
  rw [trimChars, visible_reverse, visible_dropWhile, visible_reverse, List.reverse_reverse,
    visible_dropWhile]

theorem head?_dropWhile_whitespace (cs : List Char) :
    ∀ c ∈ (cs.dropWhile isJsWhitespace).head?, isJsWhitespace c = false := fun c hc => by
  have := List.head?_dropWhile_not isJsWhitespace cs
  rwa [Option.mem_def.1 hc] at this

theorem head?_trimChars (cs : List Char) :
    ∀ c ∈ (trimChars cs).head?, isJsWhitespace c = false := fun c hc => by
  obtain ⟨t, start⟩ := List.rdropWhile_prefix isJsWhitespace (cs.dropWhile isJsWhitespace)
  rw [trimChars_eq_rdropWhile] at hc
  refine head?_dropWhile_whitespace cs c ?_
  rw [← start]
  revert hc
  cases (cs.dropWhile isJsWhitespace).rdropWhile isJsWhitespace with
  | nil => intro hc; cases hc
  | cons a l => exact id

theorem getLast?_trimChars (cs : List Char) :
    ∀ c ∈ (trimChars cs).getLast?, isJsWhitespace c = false := by
  rw [trimChars, List.getLast?_reverse]
  exact head?_dropWhile_whitespace _

/-- On a text with no whitespace at either end, trimming changes nothing. -/
theorem trimChars_of_ends {cs : List Char} (starts : ∀ c ∈ cs.head?, isJsWhitespace c = false)
    (ends : ∀ c ∈ cs.getLast?, isJsWhitespace c = false) : trimChars cs = cs := by
  have kept : cs.dropWhile isJsWhitespace = cs := by
    cases cs with
    | nil => rfl
    | cons c rest => simp [List.dropWhile_cons, starts c rfl]
  rw [trimChars_eq_rdropWhile, kept, List.rdropWhile_eq_self_iff]
  intro ne
  simp [ends _ (List.getLast_mem_getLast? ne)]

-----------------------------------------------------------------------------------------
-- optimizeTextContent
-----------------------------------------------------------------------------------------

theorem visible_optimizeTextContent (s : String) :
    visible (optimizeTextContent s).data = visible s.data := by
  show visible (trimChars _) = _
  rw [visible_trimChars, visible_collapseBlankLines (by simp),
    visible_stripTrailingBlanks (by simp)]

theorem normalText_optimizeTextContent (s : String) : NormalText (optimizeTextContent s).data where
  noBlankBeforeBreak := List.Chain'.infix
    (chain_collapseBlankLines (by simp) _ (chain_stripTrailingBlanks (by simp) _))
    (isInfix_trimChars _)
  shortBreaks := (shortBreaks_collapseBlankLines _ _).mono (isInfix_trimChars _)
  startsVisible := head?_trimChars _
  endsVisible := getLast?_trimChars _

theorem optimizeTextContent_of_normalText {t : String} (h : NormalText t.data) :
    optimizeTextContent t = t := by
  show String.mk (trimChars _) = t
  rw [@stripTrailingBlanks_of_normal [] (by simp) t.data h.noBlankBeforeBreak h.endsVisible,
    List.nil_append, @collapseBlankLines_of_short [] (by simp) t.data h.shortBreaks,
    List.nil_append, trimChars_of_ends h.startsVisible h.endsVisible]

/-- `optimizeTextContent` removes whitespace only, and returns a text in normal form, which a
second pass leaves as it is. -/
theorem optimizeTextContent_keepsVisibleAndNormalizes (s : String) :
    visible (optimizeTextContent s).data = visible s.data ∧
      NormalText (optimizeTextContent s).data ∧
      optimizeTextContent (optimizeTextContent s) = optimizeTextContent s :=
  ⟨visible_optimizeTextContent s, normalText_optimizeTextContent s,
    optimizeTextContent_of_normalText (normalText_optimizeTextContent s)⟩

/-- Trailing blanks go, five line feeds become three, and the ends are trimmed. -/
example : optimizeTextContent "  a \t\n \n\n\n\nb  " = "a\n\n\nb" := by decide

end Shipit.Inference.Infer
