import Chip8.Log.Standard
import Chip8.Proofs.Log

/-!
# The standard logger

The name of a level is read as one rule without a pattern, so it is the level alone that
decides. In a visible line there is nothing to indent and nothing that a terminal would not
show, so the standard logger prints it as it is.
-/

namespace Chip8

namespace Terminal

theorem isVisible_of_visible {s : String} (h : Visible s) : ∀ c ∈ s.toList, isVisible c = true := by
  intro c hc
  obtain ⟨hlow, hhigh⟩ := h c hc
  simp only [isVisible, Bool.and_eq_true, decide_eq_true_eq]
  omega

/-- A line break behind the text is all that may be added. -/
theorem plain_line {s : String} (h : Visible s) : plain (s ++ "\n") = s ++ "\n" := by
  have htext : ∀ c ∈ (s ++ "\n").toList, isText .ground c = true := by
    intro c hc
    rw [String.toList_append] at hc
    rcases List.mem_append.mp hc with hc | hc
    · simp [isText, isVisible_of_visible h c hc]
    · rw [List.mem_singleton.mp hc]
      decide
  rw [plain, visible_of_isText false _ htext, String.ofList_toList]

end Terminal

namespace Log

theorem indented_of_visible {s : String} (h : Visible s) : indented s = s := by
  have hline : ∀ cs : List Char, '\n' ∉ cs →
      (cs.flatMap fun c => if c = '\n' then c :: indentation else [c]) = cs := by
    intro cs hcs
    induction cs with
    | nil => rfl
    | cons c cs ih =>
        have hbreak : c ≠ '\n' := by
          rintro rfl
          exact hcs List.mem_cons_self
        rw [List.flatMap_cons, if_neg hbreak, ih fun hmem => hcs (List.mem_cons_of_mem c hmem)]
        rfl
  rw [indented, hline s.toList h.newline_not_mem, String.ofList_toList]

theorem visible_label (level : Level) (source : Source) :
    Visible ("[" ++ label level source ++ "] ") := by
  have hname : Visible level.name := by
    cases level <;> decide
  have hblanks : Visible (String.ofList (List.replicate (5 - level.name.length) ' ')) := by
    intro c hc
    rw [String.toList_ofList] at hc
    rw [List.eq_of_mem_replicate hc]
    decide
  have htarget : Visible source.target := by
    cases source <;> decide
  have hlabel : Visible (label level source) :=
    ((hname.append hblanks).append (by decide)).append htarget
  exact (Visible.append (by decide) hlabel).append (by decide)

theorem line_of_visible {r : Record} (h : Visible r.message) :
    r.line = labelled (label r.level r.source) r.message := by
  have hline : r.line = Terminal.plain (labelled (label r.level r.source) r.message) := by
    rw [Record.line, indented_of_visible h]
    simp only [labelled, label, String.append_assoc]
  rw [hline]
  exact Terminal.plain_line ((visible_label r.level r.source).append h)

theorem read_filter (level : Level) :
    Filter.read level.filter = ({ rules := [⟨none, some level⟩] }, []) := by
  cases level <;> decide +kernel

theorem admits_of_read_filter (level : Level) (r : Record) :
    ({ rules := [⟨none, some level⟩] } : Filter).admits r = decide (r.level.rank ≤ level.rank) := by
  simp [Filter.admits, Filter.ruleFor?, Rule.fits, Threshold.admits]

/-- The standard logger is as it should be. -/
theorem documented_standard : Documented standard where
  greeting := by
    intro level
    rw [standard, read_filter]
    rfl
  stops := by
    intro level r h
    simp only [standard, read_filter, admits_of_read_filter]
    rw [if_neg (by simpa using h)]
  prints := by
    intro level r h hmessage
    simp only [standard, read_filter, admits_of_read_filter]
    rw [if_pos (by simpa using h), line_of_visible hmessage]

end Log

end Chip8
