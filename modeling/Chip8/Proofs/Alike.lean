import Chip8.Sink

/-!
# Programs that run alike

A program does not look into the state of its surroundings: it asks for effects and goes on
with the answers. If two writers answer alike and keep their states related, whatever writes
to one of them therefore does the same with the other, and leaves states that are related
still. So a sink that is a part of something larger is written to as if it were alone.
-/

namespace Chip8

section

variable {σ τ α β : Type}

theorem StateM.bind_apply (x : StateM σ α) (f : α → StateM σ β) (w : σ) :
    (x >>= f) w = f (x w).1 (x w).2 := rfl

theorem StateM.pure_apply (a : α) (w : σ) : (pure a : StateM σ α) w = (a, w) := rfl

/-- From related states, the programs come to the same and leave related states. -/
def Alike (R : σ → τ → Prop) (x : StateM σ α) (y : StateM τ α) : Prop :=
  ∀ v w, R v w → (x v).1 = (y w).1 ∧ R (x v).2 (y w).2

variable {R : σ → τ → Prop}

theorem Alike.pure (a : α) : Alike R (pure a) (pure a) := fun _ _ h => ⟨rfl, h⟩

theorem Alike.bind {x : StateM σ α} {y : StateM τ α} {f : α → StateM σ β} {g : α → StateM τ β}
    (h : Alike R x y) (hfg : ∀ a, Alike R (f a) (g a)) : Alike R (x >>= f) (y >>= g) := by
  intro v w hvw
  obtain ⟨hanswer, hstates⟩ := h v w hvw
  rw [StateM.bind_apply, StateM.bind_apply, hanswer]
  exact hfg _ _ _ hstates

/-- Writers that answer alike. -/
structure Writer.Alike (R : σ → τ → Prop) (out : Writer (StateM σ)) (out' : Writer (StateM τ)) :
    Prop where
  write : ∀ chunk, Chip8.Alike R (out.write chunk) (out'.write chunk)
  flush : Chip8.Alike R out.flush out'.flush

end

namespace Sink

variable {σ : Type} {get : σ → Sink} {put : Sink → σ → σ}

/-- The writer to a sink that stands alone. -/
def itself : Writer (StateM Sink) := within id fun s _ => s

theorem run_eq {α : Type} (s : Sink) (program : Writer (StateM Sink) → StateM Sink α) :
    s.run program = ((program itself s).2, (program itself s).1) := rfl

/-- The sink is a part of the whole: what is put is found there, and replaced by what is
put next. -/
structure IsPart (get : σ → Sink) (put : Sink → σ → σ) : Prop where
  get_put : ∀ s w, get (put s w) = s
  put_put : ∀ s t w, put t (put s w) = put t w
  put_get : ∀ w, put (get w) w = w

theorem IsPart.alike (h : IsPart get put) (whole : σ) :
    Writer.Alike (fun s w => w = put s whole) itself (within get put) where
  write := by
    rintro chunk s _ rfl
    simp only [itself, within, h.get_put, h.put_put, id]
    exact ⟨trivial, trivial⟩
  flush := by
    rintro s _ rfl
    simp only [itself, within, h.get_put, h.put_put, id]
    exact ⟨trivial, trivial⟩

/-- What runs alike for all writers is done to a part of the whole and leaves the rest. -/
theorem IsPart.run {α : Type} (h : IsPart get put)
    (program : ∀ {τ : Type}, Writer (StateM τ) → StateM τ α)
    (hprogram : ∀ R : Sink → σ → Prop, Writer.Alike R itself (within get put) →
      Chip8.Alike R (program itself) (program (within get put))) (whole : σ) :
    program (within get put) whole =
      (((get whole).run program).2, put ((get whole).run program).1 whole) := by
  obtain ⟨hanswer, hstates⟩ := hprogram _ (h.alike whole) _ _ (h.put_get whole).symm
  exact Prod.ext hanswer.symm hstates

end Sink

end Chip8
