import Chip8.Proofs.Reachability

/-!
# Executions with a call stack

The machine keeps the indices behind its calls on a stack, and a return goes to the
last of them. The analysis has no stack: it takes a return for an instruction that
is followed by the next word, so the edge from a return to the word behind a call
is not in its graph. It marks every word that the machine comes to all the same,
because the word behind a call is a successor of the call. Every index that waits
on the stack is therefore marked before the machine comes back to it.
-/

namespace Chip8

/-- Where control stands, and the indices that returns will go to, next one first. -/
structure Control where
  index : Int
  returns : List Int
deriving DecidableEq, Repr

namespace Control

def start (entry : Nat) : Control := ⟨entry, []⟩

/-- One step, at a word of the image. A skip may go either way and an indexed jump
to any word of its span, as registers are not part of the state. Outside the image, and
at a return with no call to return from, there is no step. -/
inductive Step (words : Array Word) (load : UInt16) : Control → Control → Prop where
  | jump {i : Nat} {w : Word} {returns : List Int} (hw : words[i]? = some w)
      (h : w.lead = 0x1) : Step words load ⟨i, returns⟩ ⟨w.target load, returns⟩
  | call {i : Nat} {w : Word} {returns : List Int} (hw : words[i]? = some w)
      (h : w.lead = 0x2) : Step words load ⟨i, returns⟩ ⟨w.target load, (i + 1 : Int) :: returns⟩
  | ret {i : Nat} {w : Word} {r : Int} {returns : List Int} (hw : words[i]? = some w)
      (h : w = 0x00EE) : Step words load ⟨i, r :: returns⟩ ⟨r, returns⟩
  | stay {i : Nat} {w : Word} {returns : List Int} (hw : words[i]? = some w)
      (h : w.IsSkip) : Step words load ⟨i, returns⟩ ⟨i + 1, returns⟩
  | skip {i : Nat} {w : Word} {returns : List Int} (hw : words[i]? = some w)
      (h : w.IsSkip) : Step words load ⟨i, returns⟩ ⟨i + 2, returns⟩
  | indexedJump {i : Nat} {w : Word} {returns : List Int} (hw : words[i]? = some w)
      (h : w.lead = 0xB) {k : Nat} (hk : k < 128) :
      Step words load ⟨i, returns⟩ ⟨w.target load + k, returns⟩
  | next {i : Nat} {w : Word} {returns : List Int} (hw : words[i]? = some w)
      (hlead : w.lead ∉ [0x1, 0x2, 0xB]) (hskip : ¬w.IsSkip) (hret : w ≠ 0x00EE) :
      Step words load ⟨i, returns⟩ ⟨i + 1, returns⟩

end Control

namespace Reachability

variable {words : Array Word} {entry : Nat} {load : UInt16}

/-- If the index is one of the image, its word is marked. -/
def Accounted (words : Array Word) (entry : Nat) (load : UInt16) (c : Int) : Prop :=
  ∀ i : Nat, c = i → i < words.size → (analyze words entry load).isReached i = true

/-- What every step of the machine keeps: the index it stands at and all those it may
return to are accounted for. -/
structure Covers (words : Array Word) (entry : Nat) (load : UInt16) (s : Control) : Prop where
  index : Accounted words entry load s.index
  returns : ∀ r ∈ s.returns, Accounted words entry load r

/-- Control does not leave a marked word to an unmarked one. -/
theorem accounted_of_mem_exits {i : Nat} {w : Word} {c : Int}
    (h : Accounted words entry load i) (hw : words[i]? = some w) (hc : c ∈ w.exits load i) :
    Accounted words entry load c := by
  rintro j rfl hj
  obtain ⟨hi, -⟩ := Array.getElem?_eq_some_iff.mp hw
  have hmark := h i rfl hi
  exact isReached_of_mem_successors hmark (mem_successors_iff.mpr ⟨w, hw, hc⟩) hj

theorem covers_start (hindex : entry < 2 ^ 63) :
    Covers words entry load (Control.start entry) where
  index := by
    intro i heq hi
    cases Int.ofNat_inj.mp heq
    exact isReached_entry hindex hi
  returns := by
    intro r hr
    cases hr

theorem covers_step {s s' : Control} (h : Covers words entry load s)
    (hstep : Control.Step words load s s') : Covers words entry load s' := by
  cases hstep with
  | jump hw hlead =>
      exact ⟨accounted_of_mem_exits h.index hw (by simp [Word.exits, hlead]), h.returns⟩
  | @call i w returns hw hlead =>
      refine ⟨accounted_of_mem_exits h.index hw (by simp [Word.exits, hlead]), ?_⟩
      -- the word behind the call is its second successor, so it is marked with the call
      have hback : Accounted words entry load (i + 1 : Int) :=
        accounted_of_mem_exits h.index hw (by simp [Word.exits, hlead])
      intro r hr
      rcases List.mem_cons.mp hr with rfl | hr
      · exact hback
      · exact h.returns r hr
  | @ret i w r returns hw hret =>
      exact ⟨h.returns r List.mem_cons_self, fun r' hr' => h.returns r' (List.mem_cons_of_mem r hr')⟩
  | stay hw hskip =>
      exact ⟨accounted_of_mem_exits h.index hw (Word.mem_exits_of_isSkip hskip (Or.inl rfl)),
        h.returns⟩
  | skip hw hskip =>
      exact ⟨accounted_of_mem_exits h.index hw (Word.mem_exits_of_isSkip hskip (Or.inr rfl)),
        h.returns⟩
  | indexedJump hw hlead hk =>
      exact ⟨accounted_of_mem_exits h.index hw (Word.mem_exits_of_indexed hlead hk), h.returns⟩
  | next hw hlead hskip hret =>
      refine ⟨accounted_of_mem_exits h.index hw ?_, h.returns⟩
      simp only [List.mem_cons, List.not_mem_nil, or_false, not_or] at hlead
      simp [Word.exits, hlead, hskip]

/-- A run keeps what its steps keep. -/
theorem covers_run {s s' : Control} (h : Covers words entry load s)
    (hrun : Relation.ReflTransGen (Control.Step words load) s s') :
    Covers words entry load s' := by
  induction hrun with
  | refl => exact h
  | tail _ hstep ih => exact covers_step ih hstep

/-- The analysis is sound for executions with a call stack: a run of any length, with
calls and returns nested in any way, stands at marked words only. -/
theorem isReached_of_execution {words : Array Word} {entry : Nat} {load : UInt16}
    (hentry : entry < 2 ^ 63) {s : Control}
    (hrun : Relation.ReflTransGen (Control.Step words load) (Control.start entry) s)
    {i : Nat} (hs : s.index = i) (hi : i < words.size) :
    (analyze words entry load).isReached i = true :=
  (covers_run (covers_start hentry) hrun).index i hs hi

/-- A call of the word at 2, which returns to the word at 1. -/
theorem isReached_of_call_and_return :
    Relation.ReflTransGen (Control.Step #[0x2204, 0x00E0, 0x00EE] 0x200)
        (Control.start 0) ⟨1, []⟩ ∧
      (analyze #[0x2204, 0x00E0, 0x00EE] 0 0x200).isReached 1 = true := by
  have hcall : Control.Step #[0x2204, 0x00E0, 0x00EE] 0x200 (Control.start 0) ⟨2, [1]⟩ :=
    .call (i := 0) (w := 0x2204) rfl rfl
  have hreturn : Control.Step #[0x2204, 0x00E0, 0x00EE] 0x200 ⟨2, [1]⟩ ⟨1, []⟩ :=
    .ret (i := 2) (w := 0x00EE) rfl rfl
  have hrun := (Relation.ReflTransGen.single hcall).tail hreturn
  exact ⟨hrun, isReached_of_execution (by decide) hrun rfl (by decide)⟩

end Reachability

end Chip8
