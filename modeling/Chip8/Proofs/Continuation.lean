import Chip8.Proofs.Listing
import Chip8.Proofs.Reachability

/-!
# Images that are continued

Words added behind an image give the walk more places to go and take none away. What it
reached before it still reaches, by the same paths. If it never left the image, which shows
in that no target was dropped, it does not even notice the new words: it makes the same
moves, and to the listing they only add their `db` directives.
-/

namespace Chip8

namespace Walk

variable {f g : Nat → List Int} {roots : List Int} {size size' k : Nat}

/-- A path stays a path in a larger graph. -/
theorem Reaches.mono {i : Nat} (h : Reaches f roots size i) (hsize : size ≤ size')
    (hsame : ∀ i < size, f i = g i) : Reaches g roots size' i := by
  have hlt : ∀ {i}, Reaches f roots size i → i < size := by
    intro i h
    cases h with
    | root _ hi => exact hi
    | next _ _ hi => exact hi
  induction h with
  | root hroot hi => exact .root hroot (Nat.lt_of_lt_of_le hi hsize)
  | next hpath hij hj ih =>
      rw [hsame _ (hlt hpath)] at hij
      exact .next ih hij (Nat.lt_of_lt_of_le hj hsize)

/-- The same moment of the walk, with `k` more indices, none of which is marked. -/
def widen (k : Nat) (w : Walk) : Walk :=
  { w with reached := w.reached ++ Array.replicate k false }

theorem widen_start (size k : Nat) (pending : List Int) :
    (start size pending).widen k = start (size + k) pending := by
  simp [widen, start]

theorem Move.dropped_le {w w' : Walk} (hmove : Move f w w') : w.dropped ≤ w'.dropped := by
  cases hmove with
  | drop => exact Nat.le_succ _
  | pass => exact Nat.le_refl _
  | mark => exact Nat.le_refl _

theorem dropped_le_run (f : Nat → List Int) (w : Walk) : w.dropped ≤ (run f w).dropped :=
  run_of_moves (P := fun w' => w.dropped ≤ w'.dropped)
    (fun hmove hle => Nat.le_trans hle hmove.dropped_le) (Nat.le_refl _)

/-- Only a candidate that is dropped can be one of the new indices. -/
theorem Move.widen {w w' : Walk} (hmove : Move f w w') (hkept : w'.dropped = w.dropped)
    (hsame : ∀ i < w.reached.size, f i = g i) : Move g (w.widen k) (w'.widen k) := by
  cases hmove with
  | drop => exact absurd hkept (Nat.succ_ne_self _)
  | @pass reached order i rest dropped hi hr =>
      have hi' : i < (reached ++ Array.replicate k false).size := by
        rw [Array.size_append]
        exact Nat.lt_add_right _ hi
      exact .pass hi' (by rw [Array.getElem_append_left hi, hr])
  | @mark reached order i rest dropped hi hr =>
      have hi' : i < (reached ++ Array.replicate k false).size := by
        rw [Array.size_append]
        exact Nat.lt_add_right _ hi
      have hfalse : (reached ++ Array.replicate k false)[i] = false := by
        rw [Array.getElem_append_left hi, hr]
      have hmark : Move g ⟨reached ++ Array.replicate k false, order, i :: rest, dropped⟩ _ :=
        .mark hi' hfalse
      rw [Array.set_append_left hi, ← hsame i hi] at hmark
      exact hmark

/-- Walks in lock step: a run that drops nothing is the same run in a larger graph. -/
theorem run_widen {w : Walk} (h : (run f w).dropped = w.dropped)
    (hsame : ∀ i < w.reached.size, f i = g i) : run g (w.widen k) = (run f w).widen k := by
  fun_induction run f w with
  | case1 w hend => exact run_of_pending_eq_nil g hend
  | case2 w hpending _ ih =>
      -- the count never goes down, so this step has not raised it
      have hmove : Move f w (w.step f) := move_step hpending
      have hkept : (w.step f).dropped = w.dropped := by
        have hstep := hmove.dropped_le
        have hrest := dropped_le_run f (w.step f)
        omega
      rw [← run_step, (hmove.widen hkept hsame).step_eq]
      apply ih
      · rw [h, hkept]
      · rw [size_reached_step]
        exact hsame

end Walk

namespace Reachability

variable {words more : Array Word} {entry : Nat} {load : UInt16}

theorem successors_append {i : Nat} (hi : i < words.size) :
    successors words load i = successors (words ++ more) load i := by
  rw [successors, successors, Array.getElem?_append_left hi]

theorem isReached_append {i : Nat} (h : (analyze words entry load).isReached i = true) :
    (analyze (words ++ more) entry load).isReached i = true := by
  rw [isReached_analyze_iff_reaches] at h ⊢
  apply h.mono
  · rw [Array.size_append]
    exact Nat.le_add_right _ _
  · exact fun _ => successors_append

/-- The analysis of an image that is never left, seen from a longer one. -/
theorem analyze_append (h : (analyze words entry load).dropped = 0) :
    analyze (words ++ more) entry load =
      { reached := (analyze words entry load).reached ++ Array.replicate more.size false
        order := (analyze words entry load).order
        dropped := 0 } := by
  have hstart : startWalk (words ++ more) entry = (startWalk words entry).widen more.size := by
    rw [startWalk, startWalk, Walk.widen_start, Array.size_append]
  have hwalk : finalWalk (words ++ more) entry load =
      (finalWalk words entry load).widen more.size := by
    rw [finalWalk, hstart]
    apply Walk.run_widen h
    intro i hi
    have hsize : (startWalk words entry).reached.size = words.size := by
      simp [startWalk, Walk.start]
    exact successors_append (hsize ▸ hi)
  have hdropped : (finalWalk words entry load).dropped = 0 := h
  rw [analyze, hwalk, Walk.widen, hdropped]
  rfl

/-- Indices without a mark are like indices that do not exist. -/
theorem isReached_of_unmarked_behind {r r' : Reachability} {k : Nat}
    (h : r'.reached = r.reached ++ Array.replicate k false) (i : Nat) :
    r'.isReached i = r.isReached i := by
  rw [isReached, isReached, h]
  by_cases hi : i < r.reached.size
  · rw [Array.getElem?_append_left hi]
  · rw [Array.getElem?_append_right (Nat.le_of_not_lt hi), Array.getElem?_replicate,
      Array.getElem?_eq_none (Nat.le_of_not_lt hi)]
    split_ifs <;> rfl

end Reachability

namespace Listing

variable {r r' : Reachability} {load : UInt16} {words more : Array Word}

/-- Words behind an image that are not marked are directives behind its lines. -/
theorem lines_build_append (h : r'.reached = r.reached ++ Array.replicate more.size false)
    (hsize : r.size = words.size) :
    (build (words ++ more) r' load).lines =
      (build words r load).lines ++
        more.mapIdx fun j w => directive load (words.size + j) w := by
  have hline : lineOf r' load = lineOf r load := by
    funext i w
    rw [lineOf, lineOf, Reachability.isReached_of_unmarked_behind h]
  have hbehind : (fun j => lineOf r load (j + words.size)) =
      fun j w => directive load (words.size + j) w := by
    funext j w
    rw [Nat.add_comm, lineOf_of_not_isReached]
    rw [Reachability.isReached, Array.getElem?_eq_none, Option.getD_none]
    exact hsize ▸ Nat.le_add_right _ _
  rw [build, build, Array.mapIdx_append, hline, hbehind]

theorem text_append {l l' : Listing} {lines : Array Line} (h : l'.lines = l.lines ++ lines) :
    l'.text = l.text ++ String.join (lines.map fun line => line.display ++ "\n").toList := by
  rw [text, text, printed, printed, h, Array.toList_append, List.map_append, String.join_append,
    Array.toList_map]

theorem map_mapIdx_directive (load : UInt16) (first : Nat) (words : Array Word) :
    (words.mapIdx fun j w => directive load (first + j) w).map (fun line => line.display ++ "\n") =
      words.mapIdx fun j w => Hex.padded 3 (load.toNat + 2 * (first + j)) ++ ": " ++
        ("db  " ++ Hex.padded 4 w.toNat) ++ "\n" := by
  apply Array.ext
  · simp
  · intro j _ _
    simp only [Array.getElem_map, Array.getElem_mapIdx, display_directive]
    rfl

end Listing

namespace Reachability

/-- Appending words to an image never unmarks code. If the analysis of the image has dropped
no target, then it changes nothing else either: the longer image is walked in the same order
and drops no target, none of the new words is marked, and the listing goes on with one `db`
line for each of them. -/
theorem appending_keeps_code (words more : Array Word) (entry : Nat) (load : UInt16) :
    (∀ i, (analyze words entry load).isReached i = true →
      (analyze (words ++ more) entry load).isReached i = true) ∧
    ((analyze words entry load).dropped = 0 →
      (analyze (words ++ more) entry load).order = (analyze words entry load).order ∧
      (analyze (words ++ more) entry load).dropped = 0 ∧
      (analyze (words ++ more) entry load).reached =
        (analyze words entry load).reached ++ Array.replicate more.size false ∧
      (Listing.build (words ++ more) (analyze (words ++ more) entry load) load).lines =
        (Listing.build words (analyze words entry load) load).lines ++
          more.mapIdx (fun j w => Listing.directive load (words.size + j) w) ∧
      (Listing.build (words ++ more) (analyze (words ++ more) entry load) load).text =
        (Listing.build words (analyze words entry load) load).text ++
          String.join (more.mapIdx fun j w =>
            Hex.padded 3 (load.toNat + 2 * (words.size + j)) ++ ": " ++
              ("db  " ++ Hex.padded 4 w.toNat) ++ "\n").toList) := by
  refine ⟨fun i => isReached_append, ?_⟩
  intro h
  have hreached : (analyze (words ++ more) entry load).reached =
      (analyze words entry load).reached ++ Array.replicate more.size false := by
    rw [analyze_append h]
  have hlines : (Listing.build (words ++ more) (analyze (words ++ more) entry load) load).lines = _ :=
    Listing.lines_build_append hreached (size_analyze words entry load)
  have htext := Listing.text_append hlines
  rw [Listing.map_mapIdx_directive] at htext
  refine ⟨?_, ?_, ?_, hlines, htext⟩
  · rw [analyze_append h]
  · rw [analyze_append h]
  · exact hreached

/-- A skip over a jump back to it, in front of a jump to itself. Nothing leads out of this image,
so a fourth word is data, although it is a jump into the image. -/
theorem appending_keeps_skip_over_jump :
    (analyze #[0x3000, 0x1200, 0x1204] 0 0x200).dropped = 0 ∧
      (analyze (#[0x3000, 0x1200, 0x1204] ++ #[0x1202]) 0 0x200).order = #[0, 1, 2] ∧
      (Listing.build (#[0x3000, 0x1200, 0x1204] ++ #[0x1202])
          (analyze (#[0x3000, 0x1200, 0x1204] ++ #[0x1202]) 0 0x200) 0x200).text =
        "200: seq V0, 00\n202: jmp 200\n204: jmp 204\n206: db  1202\n" := by
  have hdropped : (analyze #[0x3000, 0x1200, 0x1204] 0 0x200).dropped = 0 := by decide +kernel
  obtain ⟨-, hnothing⟩ := appending_keeps_code #[0x3000, 0x1200, 0x1204] #[0x1202] 0 0x200
  obtain ⟨horder, -, -, -, htext⟩ := hnothing hdropped
  refine ⟨hdropped, horder.trans ?_, htext.trans ?_⟩
  · decide +kernel
  · decide +kernel

end Reachability

end Chip8
