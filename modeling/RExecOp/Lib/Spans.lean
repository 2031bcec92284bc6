import Mathlib.Data.List.Infix

/-! Texts in which spans are replaced by a marker: a word that contains neither end of the
marker cannot reach across it. -/

namespace RExecOp

variable {α : Type}

theorem infix_of_infix_append_cons {word before after : List α} {a : α} (absent : a ∉ word)
    (occurs : word <:+: before ++ a :: after) : word <:+: before ∨ word <:+: after := by
  rcases List.infix_append_iff.mp occurs with left | right | ⟨first, last, rfl, ends, starts⟩
  · exact .inl left
  · rcases List.infix_cons_iff.mp right with starts | later
    · rcases List.prefix_cons_iff.mp starts with rfl | ⟨rest, rfl, -⟩
      · exact .inl List.nil_infix
      · exact absurd List.mem_cons_self absent
    · exact .inr later
  · rcases List.prefix_cons_iff.mp starts with rfl | ⟨rest, rfl, -⟩
    · rw [List.append_nil]
      exact .inl ends.isInfix
    · exact absurd (List.mem_append_right _ List.mem_cons_self) absent

/-- A text with some of its spans marked. -/
structure Cut (α : Type) where
  spans : List (List α × List α)
  rest : List α

namespace Cut

def text (cut : Cut α) : List α :=
  cut.spans.foldr (fun piece later => piece.1 ++ (piece.2 ++ later)) cut.rest

def replaced (marker : List α) (cut : Cut α) : List α :=
  cut.spans.foldr (fun piece later => piece.1 ++ (marker ++ later)) cut.rest

end Cut

structure Apart (word : List α) (opening : α) (body : List α) (closing : α) : Prop where
  opens : opening ∉ word
  closes : closing ∉ word
  outside : ¬ word <:+: body

section

variable {word body : List α} {opening closing : α}

theorem Apart.beside (apart : Apart word opening body closing) {before after : List α}
    (occurs : word <:+: before ++ (opening :: body ++ [closing] ++ after)) :
    word <:+: before ∨ word <:+: after := by
  rw [List.append_assoc, List.cons_append] at occurs
  rcases infix_of_infix_append_cons apart.opens occurs with left | right
  · exact .inl left
  · rcases infix_of_infix_append_cons apart.closes right with inside | later
    · exact absurd inside apart.outside
    · exact .inr later

theorem Apart.infix_replaced (apart : Apart word opening body closing) {cut : Cut α}
    (occurs : word <:+: cut.replaced (opening :: body ++ [closing])) : word <:+: cut.text := by
  obtain ⟨spans, rest⟩ := cut
  induction spans with
  | nil => exact occurs
  | cons piece later ih =>
    rcases apart.beside occurs with here | there
    · exact List.infix_append_of_infix_left here
    · exact List.infix_append_of_infix_right (List.infix_append_of_infix_right (ih there))

end

/-- Left to right over the text, with `skip` letters still to be left out. -/
def replaceFrom [DecidableEq α] (word marker : List α) : Nat → List α → List α
  | _, [] => []
  | skip + 1, _ :: text => replaceFrom word marker skip text
  | 0, a :: text =>
    if word.isPrefixOf (a :: text) then marker ++ replaceFrom word marker (word.length - 1) text
    else a :: replaceFrom word marker 0 text

def replaceAll [DecidableEq α] (word marker text : List α) : List α :=
  replaceFrom word marker 0 text

section

variable [DecidableEq α] {word marker : List α}

theorem replaceFrom_drop (skip : Nat) (text : List α) :
    replaceFrom word marker skip text = replaceAll word marker (text.drop skip) := by
  induction skip generalizing text with
  | zero => rfl
  | succ skip ih =>
    cases text with
    | nil => rfl
    | cons a text => exact ih text

theorem replaceAll_of_starts {text : List α} (given : word ≠ []) (starts : word <+: text) :
    replaceAll word marker text = marker ++ replaceAll word marker (text.drop word.length) := by
  cases text with
  | nil => exact absurd (List.prefix_nil.mp starts) given
  | cons a text =>
    have long : 0 < word.length := List.length_pos_iff.mpr given
    rw [replaceAll, replaceFrom, if_pos (List.isPrefixOf_iff_prefix.mpr starts), replaceFrom_drop]
    congr 2
    rw [← Nat.succ_pred_eq_of_pos long]
    rfl

theorem replaceAll_cons {a : α} {text : List α} (starts : ¬ word <+: a :: text) :
    replaceAll word marker (a :: text) = a :: replaceAll word marker text := by
  rw [replaceAll, replaceFrom, if_neg fun found => starts (List.isPrefixOf_iff_prefix.mp found)]
  rfl

theorem exists_cut (given : word ≠ []) (text : List α) :
    ∃ cut : Cut α, cut.text = text ∧ cut.replaced marker = replaceAll word marker text ∧
      (∀ piece ∈ cut.spans, ¬ word <:+: piece.1) ∧ ¬ word <:+: cut.rest := by
  induction length : text.length using Nat.strong_induction_on generalizing text with
  | h n ih =>
    have long : 0 < word.length := List.length_pos_iff.mpr given
    cases text with
    | nil =>
      refine ⟨⟨[], []⟩, rfl, rfl, nofun, fun occurs => given ?_⟩
      exact List.eq_nil_of_infix_nil occurs
    | cons a text =>
      by_cases starts : word <+: a :: text
      · have shorter : ((a :: text).drop word.length).length < n := by
          rw [List.length_drop, length]
          exact Nat.sub_lt (length ▸ Nat.succ_pos _) long
        obtain ⟨cut, whole, done, gaps, rest⟩ := ih _ shorter _ rfl
        refine ⟨⟨([], word) :: cut.spans, cut.rest⟩, ?_, ?_, ?_, rest⟩
        · change [] ++ (word ++ cut.text) = a :: text
          rw [whole, List.nil_append]
          exact (List.prefix_iff_eq_append.mp starts)
        · change [] ++ (marker ++ cut.replaced marker) = _
          rw [done, replaceAll_of_starts given starts, List.nil_append]
        · intro piece member
          rcases List.mem_cons.mp member with rfl | later
          · exact fun occurs => given (List.eq_nil_of_infix_nil occurs)
          · exact gaps piece later
      · have shorter : text.length < n := by
          rw [← length]
          exact Nat.lt_succ_self _
        obtain ⟨⟨spans, tail⟩, whole, done, gaps, rest⟩ := ih _ shorter _ rfl
        -- the letter joins what stands before the first span
        cases spans with
        | nil =>
          change tail = text at whole
          refine ⟨⟨[], a :: tail⟩, congrArg _ whole, ?_, nofun, fun occurs => ?_⟩
          · rw [replaceAll_cons starts, ← done]
            rfl
          · rcases List.infix_cons_iff.mp occurs with here | later
            · exact starts (whole ▸ here)
            · exact rest later
        | cons piece spans =>
          refine ⟨⟨(a :: piece.1, piece.2) :: spans, tail⟩, congrArg _ whole, ?_, ?_, rest⟩
          · rw [replaceAll_cons starts, ← done]
            rfl
          · intro other member
            rcases List.mem_cons.mp member with rfl | later
            · intro occurs
              rcases List.infix_cons_iff.mp occurs with here | later
              · refine starts (here.trans ?_)
                rw [← whole]
                exact List.prefix_append _ _
              · exact gaps piece List.mem_cons_self later
            · exact gaps other (List.mem_cons_of_mem _ later)

theorem Apart.not_infix_replaceAll {opening closing : α} {body : List α}
    (apart : Apart word opening body closing) (given : word ≠ []) (text : List α) :
    ¬ word <:+: replaceAll word (opening :: body ++ [closing]) text := by
  obtain ⟨⟨spans, rest⟩, -, done, gaps, tail⟩ :=
    @exists_cut α _ word (opening :: body ++ [closing]) given text
  rw [← done]
  clear done
  induction spans with
  | nil => exact tail
  | cons piece later ih =>
    intro occurs
    rcases apart.beside occurs with here | there
    · exact gaps piece List.mem_cons_self here
    · exact ih (fun other member => gaps other (List.mem_cons_of_mem _ member)) tail there

theorem Apart.infix_replaceAll {other body : List α} {opening closing : α}
    (apart : Apart other opening body closing) (given : word ≠ []) {text : List α}
    (occurs : other <:+: replaceAll word (opening :: body ++ [closing]) text) :
    other <:+: text := by
  obtain ⟨cut, whole, done, -⟩ := @exists_cut α _ word (opening :: body ++ [closing]) given text
  rw [← done] at occurs
  rw [← whole]
  exact apart.infix_replaced occurs

end

end RExecOp
