import ZgChain.Lib.Result

/-!
# Computations on a state in place

What a computation in `EStateM` has written stays written when it fails. It leaves no
trace in a part of the state if everything before its last write to that part only
reads, and nothing after it fails.
-/

namespace ZgChain.InPlace

section
variable {ε σ τ α β : Type} {view : σ → τ}

def reads (f : σ → Except ε α) : EStateM ε σ α := fun w =>
  match f w with
  | .ok a => .ok a w
  | .error e => .error e w

def updates (f : σ → Except ε σ) : EStateM ε σ Unit := fun w =>
  match f w with
  | .ok w' => .ok () w'
  | .error e => .error e w

def ReadsOnly (x : EStateM ε σ α) : Prop := ∀ w, (∃ a, x w = .ok a w) ∨ ∃ e, x w = .error e w

def Total (x : EStateM ε σ α) : Prop := ∀ w, ∃ a w', x w = .ok a w'

def Traceless (view : σ → τ) (x : EStateM ε σ α) : Prop :=
  ∀ w e w', x w = .error e w' → view w' = view w

theorem bind_of_ok {x : EStateM ε σ α} {f : α → EStateM ε σ β} {w w' : σ} {a : α}
    (h : x w = .ok a w') :
    (x >>= f) w = f a w' := by
  simp only [bind, EStateM.bind, h]

theorem bind_of_error {x : EStateM ε σ α} {f : α → EStateM ε σ β} {w w' : σ} {e : ε}
    (h : x w = .error e w') :
    (x >>= f) w = .error e w' := by
  simp only [bind, EStateM.bind, h]

theorem reads_readsOnly (f : σ → Except ε α) : ReadsOnly (reads f) := by
  intro w
  unfold reads
  cases f w with
  | ok a => exact .inl ⟨a, rfl⟩
  | error e => exact .inr ⟨e, rfl⟩

theorem updates_traceless (f : σ → Except ε σ) : Traceless view (updates f) := by
  intro w e w' h
  unfold updates at h
  cases hf : f w with
  | ok s =>
    rw [hf] at h
    cases h
  | error e' =>
    rw [hf] at h
    cases h
    rfl

theorem Total.traceless {x : EStateM ε σ α} (hx : Total x) : Traceless view x := by
  intro w e w' h
  obtain ⟨a, s, ha⟩ := hx w
  rw [ha] at h
  cases h

theorem Total.bind {x : EStateM ε σ α} {f : α → EStateM ε σ β} (hx : Total x)
    (hf : ∀ a, Total (f a)) :
    Total (x >>= f) := by
  intro w
  obtain ⟨a, w', ha⟩ := hx w
  rw [bind_of_ok ha]
  exact hf a w'

theorem ReadsOnly.traceless {x : EStateM ε σ α} (hx : ReadsOnly x) : Traceless view x := by
  intro w e w' h
  obtain ⟨a, ha⟩ | ⟨e', he⟩ := hx w
  · rw [ha] at h
    cases h
  · rw [he] at h
    cases h
    rfl

theorem ReadsOnly.bind {x : EStateM ε σ α} {f : α → EStateM ε σ β} (hx : ReadsOnly x)
    (hf : ∀ a, Traceless view (f a)) : Traceless view (x >>= f) := by
  intro w e w' h
  obtain ⟨a, ha⟩ | ⟨e', he⟩ := hx w
  · rw [bind_of_ok ha] at h
    exact hf a w e w' h
  · rw [bind_of_error he] at h
    cases h
    rfl

theorem Traceless.bind {x : EStateM ε σ α} {f : α → EStateM ε σ β} (hx : Traceless view x)
    (hf : ∀ a, Total (f a)) : Traceless view (x >>= f) := by
  intro w e w' h
  cases hr : x w with
  | ok a s =>
    rw [bind_of_ok hr] at h
    obtain ⟨b, s', hb⟩ := hf a s
    rw [hb] at h
    cases h
  | error e' s =>
    rw [bind_of_error hr] at h
    cases h
    exact hx w e w' hr

/-- Checks before a write are part of what computes it. -/
theorem reads_bind_updates (f : σ → Except ε α) (g : α → σ → Except ε σ) :
    (reads f >>= fun a => updates (g a)) = updates fun w => f w >>= fun a => g a w := by
  funext w
  simp only [bind, EStateM.bind, reads, updates]
  cases f w with
  | ok a => rfl
  | error e => rfl

end

end ZgChain.InPlace
