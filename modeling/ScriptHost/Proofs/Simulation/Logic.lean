import ScriptHost.Machine.Engine
import ScriptHost.Proofs.Simulation.Renaming

/-! Two runs side by side. A simulation says how the machines of two hosts are related while a run
goes on, when a fault is on its way, and when everything has stopped. Two runs are alike when, from
related machines, they end the same way on related machines; objects made on the way are paired by a
larger renaming. The second run may be allowed to stop where the first goes on. Each operation of
the run monads has one rule. -/

namespace ScriptHost

namespace Live

variable {H α β : Type} {x : Live H α} {f : α → Live H β} {m m' : Machine H}

/-- Two steps in a row, when the first is known to go well. -/
theorem bind_run {a : α} {n : Machine H} (ran : x m = .ok a n) : EStateM.bind x f m = f a n := by
  unfold EStateM.bind
  rw [ran]

/-- Two steps in a row that went well: both did. -/
theorem bind_inv {b : β} (ran : EStateM.bind x f m = .ok b m') :
    ∃ a n, x m = .ok a n ∧ f a n = .ok b m' := by
  unfold EStateM.bind at ran
  cases first : x m with
  | ok a n =>
    rw [first] at ran
    exact ⟨a, n, rfl, ran⟩
  | error h n =>
    rw [first] at ran
    cases ran

end Live

namespace Run

variable {H α β : Type} {x : Run H α} {f : α → Run H β} {m m' : Machine H}

/-- A run goes on from where its first part ended. -/
theorem bind_run {a : α} {n : Machine H} (ran : x.run m = .ok (.ok a) n) :
    (x >>= f).run m = (f a).run n :=
  Live.bind_run (x := x.run) (f := ExceptT.bindCont f) ran

/-- Two runs in a row: the first failed, or it led to where the second started. -/
theorem bind_inv {r : Except RuntimeError β} (ran : (x >>= f).run m = .ok r m') :
    (∃ e, r = .error e ∧ x.run m = .ok (.error e) m') ∨
      ∃ a n, x.run m = .ok (.ok a) n ∧ (f a).run n = .ok r m' := by
  obtain ⟨e | a, n, first, later⟩ := Live.bind_inv (x := x.run) (f := ExceptT.bindCont f) ran
  · cases later
    exact .inl ⟨e, rfl, first⟩
  · exact .inr ⟨a, n, first, later⟩

/-- Two runs in a row that came to a value: both did. -/
theorem bind_ok {b : β} (ran : (x >>= f).run m = .ok (.ok b) m') :
    ∃ a n, x.run m = .ok (.ok a) n ∧ (f a).run n = .ok (.ok b) m' := by
  obtain ⟨e, failed, -⟩ | both := bind_inv ran
  · cases failed
  · exact both

/-- A fault of two runs in a row is one of the first or of the second. -/
theorem bind_fault {e : RuntimeError} (failed : (x >>= f).run m = .ok (.error e) m') :
    x.run m = .ok (.error e) m' ∨
      ∃ a n, x.run m = .ok (.ok a) n ∧ (f a).run n = .ok (.error e) m' := by
  obtain ⟨_, same, first⟩ | both := bind_inv failed
  · cases same
    exact .inl first
  · exact .inr both

end Run

namespace Script

variable {H α β : Type} {x : Script H α} {g : α → Script H β} {f k f' : Frame} {m n m' : Machine H}

/-- A part that starts by looking at its activation. -/
theorem getFrame_run (g : Frame → Script H β) (f : Frame) (m : Machine H) :
    (getThe Frame >>= g).run.run f m = (g f).run.run f m :=
  rfl

/-- Two parts in a row, when the first is known to go well. -/
theorem bind_run {a : α} (ran : x.run.run f m = .ok (.ok a, k) n) :
    (x >>= g).run.run f m = (g a).run.run k n :=
  Live.bind_run (x := x.run.run f) (f := fun r => (ExceptT.bindCont g r.1).run r.2) ran

/-- Two parts in a row, when the first is known to fail. -/
theorem bind_failed {e : RuntimeError} (ran : x.run.run f m = .ok (.error e, k) n) :
    (x >>= g).run.run f m = .ok (.error e, k) n :=
  Live.bind_run (x := x.run.run f) (f := fun r => (ExceptT.bindCont g r.1).run r.2) ran

/-- Two parts in a row: the first failed, or it led to where the second started. -/
theorem bind_inv {r : Except RuntimeError β} (ran : (x >>= g).run.run f m = .ok (r, f') m') :
    (∃ e, r = .error e ∧ x.run.run f m = .ok (.error e, f') m') ∨
      ∃ a k n, x.run.run f m = .ok (.ok a, k) n ∧ (g a).run.run k n = .ok (r, f') m' := by
  obtain ⟨⟨e | a, k⟩, n, first, later⟩ := Live.bind_inv (x := x.run.run f)
    (f := fun r => (ExceptT.bindCont g r.1).run r.2) ran
  · cases later
    exact .inl ⟨e, rfl, first⟩
  · exact .inr ⟨a, k, n, first, later⟩

/-- Further code changes nothing of the activation. -/
theorem ofRun_inv {x : Run H α} {r : Except RuntimeError α}
    (ran : (Script.ofRun x).run.run f m = .ok (r, f') m') : x.run m = .ok r m' ∧ f' = f := by
  obtain ⟨r, n, worked, kept⟩ := Live.bind_inv (x := x.run) (f := fun r => Pure.pure (r, f)) ran
  cases kept
  exact ⟨worked, rfl⟩

end Script

/-- How the machines of two hosts are related under a renaming, and which class declarations they
come upon in a module. -/
structure Simulation (H₁ H₂ : Type) where
  written : String → ClassDecl → Prop
  going : Renaming → Machine H₁ → Machine H₂ → Prop
  fault : RuntimeFault → Renaming → Machine H₁ → Machine H₂ → Prop
  halt : Halt → Renaming → Machine H₁ → Machine H₂ → Prop
  /-- How the second run may stop by itself. -/
  stops : Halt → Prop := fun _ => False
  /-- What is known of the two interpreters beside that they do the same. -/
  engines : Engine H₁ → Engine H₂ → Prop := fun _ _ => True
  /-- Whether lists may be added to; if not, whoever relates the interpreters sees to it. -/
  adds : Prop := True

/-- What two results have in common under a renaming. -/
abbrev Results (α β : Type) := Renaming → α → β → Prop

namespace Results

variable {α : Type}

def same : Results α α := fun _ a b => a = b

def alike : Results Value Value := fun ρ v w => v.Alike ρ w

def allAlike : Results (List Value) (List Value) := Value.AllAlike

end Results

variable {H₁ H₂ α β γ δ : Type} {S : Simulation H₁ H₂} {ρ σ : Renaming}

namespace Simulation

/-- Two runs ended the same way, with `Q` of what they came to, or the second stopped by itself. -/
inductive Ended (S : Simulation H₁ H₂) (ρ : Renaming)
    (Q : Renaming → α → Machine H₁ → β → Machine H₂ → Prop) :
    EStateM.Result Halt (Machine H₁) α → EStateM.Result Halt (Machine H₂) β → Prop
  | ok {σ a m b n} : ρ ≤ σ → Q σ a m b n → Ended S ρ Q (.ok a m) (.ok b n)
  | halt {σ h m n} : ρ ≤ σ → S.halt h σ m n → Ended S ρ Q (.error h m) (.error h n)
  | stopped {r h n} : S.stops h → Ended S ρ Q r (.error h n)

/-- Two runs of scripts came to related results, or to the same fault. -/
inductive Settled (S : Simulation H₁ H₂) (Q : Results α β) (ρ : Renaming) :
    Except RuntimeError α → Machine H₁ → Except RuntimeError β → Machine H₂ → Prop
  | ok {a m b n} : S.going ρ m n → Q ρ a b → Settled S Q ρ (.ok a) m (.ok b) n
  | fault {e m n} : S.fault e.fault ρ m n → Settled S Q ρ (.error e) m (.error e) n

variable {P : Renaming → α → Machine H₁ → β → Machine H₂ → Prop}
  {Q : Renaming → γ → Machine H₁ → δ → Machine H₂ → Prop}

theorem Ended.of_le {r : EStateM.Result Halt (Machine H₁) α}
    {s : EStateM.Result Halt (Machine H₂) β} (h : S.Ended σ P r s) (le : ρ ≤ σ) :
    S.Ended ρ P r s := by
  cases h with
  | ok le' h => exact .ok (le.trans le') h
  | halt le' h => exact .halt (le.trans le') h
  | stopped h => exact .stopped h

theorem Ended.imp {P' : Renaming → α → Machine H₁ → β → Machine H₂ → Prop}
    {r : EStateM.Result Halt (Machine H₁) α} {s : EStateM.Result Halt (Machine H₂) β}
    (h : S.Ended ρ P r s) (hP : ∀ {σ a m b n}, ρ ≤ σ → P σ a m b n → P' σ a m b n) :
    S.Ended ρ P' r s := by
  cases h with
  | ok le h => exact .ok le (hP le h)
  | halt le h => exact .halt le h
  | stopped h => exact .stopped h

theorem Ended.bind {x : Live H₁ α} {y : Live H₂ β} {f : α → Live H₁ γ} {g : β → Live H₂ δ}
    {m : Machine H₁} {n : Machine H₂} (h : S.Ended ρ P (x m) (y n))
    (hf : ∀ {σ a m b n}, ρ ≤ σ → P σ a m b n → S.Ended σ Q (f a m) (g b n)) :
    S.Ended ρ Q ((x >>= f) m) ((y >>= g) n) := by
  change S.Ended ρ Q (EStateM.bind x f m) (EStateM.bind y g n)
  unfold EStateM.bind
  revert h
  generalize x m = r, y n = s
  rintro (⟨le, h⟩ | ⟨le, h⟩ | h)
  · exact (hf le h).of_le le
  · exact .halt le h
  · exact .stopped h

theorem Ended.map {x : Live H₁ α} {y : Live H₂ β} {f : α → γ} {g : β → δ} {m : Machine H₁}
    {n : Machine H₂} (h : S.Ended ρ P (x m) (y n))
    (hf : ∀ {σ a m b n}, P σ a m b n → Q σ (f a) m (g b) n) :
    S.Ended ρ Q ((f <$> x) m) ((g <$> y) n) := by
  change S.Ended ρ Q (EStateM.map f x m) (EStateM.map g y n)
  unfold EStateM.map
  revert h
  generalize x m = r, y n = s
  rintro (⟨le, h⟩ | ⟨le, h⟩ | h)
  · exact .ok le (hf h)
  · exact .halt le h
  · exact .stopped h

theorem Ended.and_left {C : α → Machine H₁ → Prop} {r : EStateM.Result Halt (Machine H₁) α}
    {s : EStateM.Result Halt (Machine H₂) β} (h : S.Ended ρ P r s)
    (hC : ∀ {a m}, r = .ok a m → C a m) :
    S.Ended ρ (fun σ a m b n => P σ a m b n ∧ C a m) r s := by
  cases h with
  | ok le h => exact .ok le ⟨h, hC rfl⟩
  | halt le h => exact .halt le h
  | stopped h => exact .stopped h

end Simulation

/-! ### The host's side -/

/-- Two pieces of host-side work that do the same. -/
def LiveSim (S : Simulation H₁ H₂) (ρ : Renaming) (Q : Results α β) (x : Live H₁ α)
    (y : Live H₂ β) : Prop :=
  ∀ m n, S.going ρ m n → S.Ended ρ (fun σ a m b n => S.going σ m n ∧ Q σ a b) (x m) (y n)

namespace LiveSim

variable {P : Results α β} {Q : Results γ δ}

protected theorem pure {a : α} {b : β} (h : P ρ a b) :
    LiveSim S ρ P (Pure.pure a) (Pure.pure b) :=
  fun _ _ hmn => .ok le_rfl ⟨hmn, h⟩

protected theorem bind {x : Live H₁ α} {y : Live H₂ β} {f : α → Live H₁ γ} {g : β → Live H₂ δ}
    (h : LiveSim S ρ P x y)
    (hf : ∀ {σ a b}, ρ ≤ σ → P σ a b → LiveSim S σ Q (f a) (g b)) :
    LiveSim S ρ Q (x >>= f) (y >>= g) :=
  fun m n hmn => (h m n hmn).bind fun le hab => hf le hab.2 _ _ hab.1

theorem get_bind {f : Machine H₁ → Live H₁ γ} {g : Machine H₂ → Live H₂ δ}
    (h : ∀ m n, S.going ρ m n →
      S.Ended ρ (fun σ a m b n => S.going σ m n ∧ Q σ a b) (f m m) (g n n)) :
    LiveSim S ρ Q (get >>= f) (get >>= g) :=
  fun m n hmn => h m n hmn

theorem modify {f : Machine H₁ → Machine H₁} {g : Machine H₂ → Machine H₂}
    (h : ∀ m n, S.going ρ m n → S.going ρ (f m) (g n)) :
    LiveSim S ρ .same (modify f) (modify g) :=
  fun m n hmn => .ok le_rfl ⟨h m n hmn, rfl⟩

end LiveSim

/-! ### Runs of scripts -/

/-- Two runs that do the same. -/
def RunSim (S : Simulation H₁ H₂) (ρ : Renaming) (Q : Results α β) (x : Run H₁ α)
    (y : Run H₂ β) : Prop :=
  ∀ m n, S.going ρ m n → S.Ended ρ (S.Settled Q) (x.run m) (y.run n)

namespace RunSim

variable {P : Results α β} {Q : Results γ δ}

protected theorem pure {a : α} {b : β} (h : P ρ a b) : RunSim S ρ P (Pure.pure a) (Pure.pure b) :=
  fun _ _ hmn => .ok le_rfl (.ok hmn h)

/-- A run from one pair of machines, and what follows it from all. -/
theorem bind_at {x : Run H₁ α} {y : Run H₂ β} {f : α → Run H₁ γ} {g : β → Run H₂ δ}
    {m : Machine H₁} {n : Machine H₂} (h : S.Ended ρ (S.Settled P) (x.run m) (y.run n))
    (hf : ∀ {σ a b}, ρ ≤ σ → P σ a b → RunSim S σ Q (f a) (g b)) :
    S.Ended ρ (S.Settled Q) ((x >>= f).run m) ((y >>= g).run n) := by
  refine h.bind (f := ExceptT.bindCont f) (g := ExceptT.bindCont g) ?_
  rintro σ _ m _ n le (⟨hmn, hab⟩ | hmn)
  · exact hf le hab m n hmn
  · exact .ok le_rfl (.fault hmn)

protected theorem bind {x : Run H₁ α} {y : Run H₂ β} {f : α → Run H₁ γ} {g : β → Run H₂ δ}
    (h : RunSim S ρ P x y)
    (hf : ∀ {σ a b}, ρ ≤ σ → P σ a b → RunSim S σ Q (f a) (g b)) :
    RunSim S ρ Q (x >>= f) (y >>= g) :=
  fun m n hmn => bind_at (h m n hmn) hf

/-- The result of a run used as related to something else. -/
protected theorem imp {P' : Results α β} {x : Run H₁ α} {y : Run H₂ β} (h : RunSim S ρ P x y)
    (hP : ∀ {σ a b}, ρ ≤ σ → P σ a b → P' σ a b) : RunSim S ρ P' x y := by
  intro m n hmn
  refine (h m n hmn).imp ?_
  rintro σ _ m _ n le (⟨hmn, hab⟩ | hmn)
  · exact .ok hmn (hP le hab)
  · exact .fault hmn

theorem and_left {C : α → Prop} {x : Run H₁ α} {y : Run H₂ β} (h : RunSim S ρ P x y)
    (hC : ∀ {m n a m'}, S.going ρ m n → x.run m = .ok (.ok a) m' → C a) :
    RunSim S ρ (fun σ a b => P σ a b ∧ C a) x y := by
  intro m n hmn
  refine ((h m n hmn).and_left (C := fun r _ => ∀ a, r = .ok a → C a) ?_).imp ?_
  · rintro _ m' hx a rfl
    exact hC hmn hx
  · rintro σ _ m _ n _ ⟨⟨hmn, hab⟩ | hmn, hC⟩
    · exact .ok hmn ⟨hab, hC _ rfl⟩
    · exact .fault hmn

theorem get_bind {f : Machine H₁ → Run H₁ γ} {g : Machine H₂ → Run H₂ δ}
    (h : ∀ m n, S.going ρ m n → S.Ended ρ (S.Settled Q) ((f m).run m) ((g n).run n)) :
    RunSim S ρ Q (get >>= f) (get >>= g) :=
  fun m n hmn => h m n hmn

theorem modify {f : Machine H₁ → Machine H₁} {g : Machine H₂ → Machine H₂}
    (h : ∀ m n, S.going ρ m n → S.going ρ (f m) (g n)) :
    RunSim S ρ .same (modify f) (modify g) :=
  fun m n hmn => .ok le_rfl (.ok (h m n hmn) rfl)

theorem modifyGet {f : Machine H₁ → α × Machine H₁} {g : Machine H₂ → β × Machine H₂}
    (h : ∀ m n, S.going ρ m n → ∃ σ, ρ ≤ σ ∧ S.going σ (f m).2 (g n).2 ∧ P σ (f m).1 (g n).1) :
    RunSim S ρ P (modifyGet f) (modifyGet g) := by
  intro m n hmn
  obtain ⟨σ, le, hmn, hab⟩ := h m n hmn
  exact .ok le (.ok hmn hab)

theorem fault {f : RuntimeFault} (h : ∀ m n, S.going ρ m n → S.fault f ρ m n) :
    RunSim S ρ P (ScriptHost.fault f) (ScriptHost.fault f) :=
  fun m n hmn => .ok le_rfl (.fault (h m n hmn))

theorem halt {h : Halt} (hh : ∀ m n, S.going ρ m n → S.halt h ρ m n) :
    RunSim S ρ P (throwThe Halt h) (throwThe Halt h) :=
  fun m n hmn => .halt le_rfl (hh m n hmn)

theorem lift {x : Live H₁ α} {y : Live H₂ β} (h : LiveSim S ρ P x y) :
    RunSim S ρ P (monadLift x) (monadLift y) :=
  fun m n hmn => (h m n hmn).map fun hab => .ok hab.1 hab.2

end RunSim

/-! ### Runs inside an activation -/

/-- Two runs inside alike activations of a module that do the same, and leave them alike. -/
def ScriptSim (S : Simulation H₁ H₂) (ρ : Renaming) (moduleName : String) (Q : Results α β)
    (x : Script H₁ α)
    (y : Script H₂ β) : Prop :=
  ∀ f g m n, f.Alike ρ moduleName g → S.going ρ m n →
    S.Ended ρ (fun σ a m b n => a.2.Alike σ moduleName b.2 ∧ S.Settled Q σ a.1 m b.1 n)
      (x.run.run f m) (y.run.run g n)

namespace ScriptSim

variable {P : Results α β} {Q : Results γ δ} {moduleName : String}

protected theorem pure {a : α} {b : β} (h : P ρ a b) :
    ScriptSim S ρ moduleName P (Pure.pure a) (Pure.pure b) :=
  fun _ _ _ _ hfg hmn => .ok le_rfl ⟨hfg, .ok hmn h⟩

protected theorem bind {x : Script H₁ α} {y : Script H₂ β} {f : α → Script H₁ γ}
    {g : β → Script H₂ δ} (h : ScriptSim S ρ moduleName P x y)
    (hf : ∀ {σ a b}, ρ ≤ σ → P σ a b → ScriptSim S σ moduleName Q (f a) (g b)) :
    ScriptSim S ρ moduleName Q (x >>= f) (y >>= g) := by
  intro k l m n hkl hmn
  refine (h k l m n hkl hmn).bind (f := fun r => (ExceptT.bindCont f r.1).run r.2)
    (g := fun r => (ExceptT.bindCont g r.1).run r.2) ?_
  rintro σ ⟨_, k⟩ m ⟨_, l⟩ n le ⟨hkl, ⟨hmn, hab⟩ | hmn⟩
  · exact hf le hab k l m n hkl hmn
  · exact .ok le_rfl ⟨hkl, .fault hmn⟩

/-- A run that starts by looking at its activation. -/
theorem getFrame_bind {f : Frame → Script H₁ γ} {g : Frame → Script H₂ δ}
    (h : ∀ k l, k.Alike ρ moduleName l → ScriptSim S ρ moduleName Q (f k) (g l)) :
    ScriptSim S ρ moduleName Q (getThe Frame >>= f) (getThe Frame >>= g) :=
  fun k l m n hkl hmn => h k l hkl k l m n hkl hmn

theorem get_bind {f : Machine H₁ → Script H₁ γ} {g : Machine H₂ → Script H₂ δ}
    (h : ∀ m n, S.going ρ m n → ScriptSim S ρ moduleName Q (f m) (g n)) :
    ScriptSim S ρ moduleName Q (getThe (Machine H₁) >>= f) (getThe (Machine H₂) >>= g) :=
  fun k l m n hkl hmn => h m n hmn k l m n hkl hmn

theorem modifyFrame {f g : Frame → Frame}
    (h : ∀ k l, k.Alike ρ moduleName l → (f k).Alike ρ moduleName (g l)) :
    ScriptSim S ρ moduleName .same (modifyThe Frame f) (modifyThe Frame g) :=
  fun k l _ _ hkl hmn => .ok le_rfl ⟨h k l hkl, .ok hmn rfl⟩

theorem modify {f : Machine H₁ → Machine H₁} {g : Machine H₂ → Machine H₂}
    (h : ∀ m n, S.going ρ m n → S.going ρ (f m) (g n)) :
    ScriptSim S ρ moduleName .same (modifyThe (Machine H₁) f) (modifyThe (Machine H₂) g) :=
  fun _ _ m n hkl hmn => .ok le_rfl ⟨hkl, .ok (h m n hmn) rfl⟩

theorem modifyGet {f : Machine H₁ → α × Machine H₁} {g : Machine H₂ → β × Machine H₂}
    (h : ∀ m n, S.going ρ m n → ∃ σ, ρ ≤ σ ∧ S.going σ (f m).2 (g n).2 ∧ P σ (f m).1 (g n).1) :
    ScriptSim S ρ moduleName P (modifyGetThe (Machine H₁) f) (modifyGetThe (Machine H₂) g) := by
  intro _ _ m n hkl hmn
  obtain ⟨σ, le, hmn, hab⟩ := h m n hmn
  exact .ok le ⟨hkl.mono le, .ok hmn hab⟩

theorem fault {f : RuntimeFault} (h : ∀ m n, S.going ρ m n → S.fault f ρ m n) :
    ScriptSim S ρ moduleName P (ScriptHost.fault f) (ScriptHost.fault f) :=
  fun _ _ m n hkl hmn => .ok le_rfl ⟨hkl, .fault (h m n hmn)⟩

theorem halt {h : Halt} (hh : ∀ m n, S.going ρ m n → S.halt h ρ m n) :
    ScriptSim S ρ moduleName P (throwThe Halt h) (throwThe Halt h) :=
  fun _ _ m n _ hmn => .halt le_rfl (hh m n hmn)

theorem ofRun {x : Run H₁ α} {y : Run H₂ β} (h : RunSim S ρ P x y) :
    ScriptSim S ρ moduleName P (Script.ofRun x) (Script.ofRun y) := by
  intro k l m n hkl hmn
  refine (h m n hmn).bind (f := fun r => Pure.pure (r, k)) (g := fun r => Pure.pure (r, l)) ?_
  intro σ a m b n le hab
  exact .ok le_rfl ⟨hkl.mono le, hab⟩

private theorem forall₂_tail {R : α → β → Prop} {as : List α} {bs : List β}
    (h : List.Forall₂ R as bs) : List.Forall₂ R as.tail bs.tail := by
  cases h with
  | nil => exact .nil
  | cons _ h => exact h

theorem inScope {s t : Bindings} {x : Script H₁ α} {y : Script H₂ β}
    (hst : Bindings.Alike ρ s t) (h : ScriptSim S ρ moduleName P x y) :
    ScriptSim S ρ moduleName P (Script.inScope s x) (Script.inScope t y) := by
  intro k l m n hkl hmn
  refine (h _ _ m n (hkl.withScopes (.cons hst hkl.scopes)) hmn).bind
    (f := fun r => Pure.pure (r.1, { r.2 with scopes := r.2.scopes.tail }))
    (g := fun r => Pure.pure (r.1, { r.2 with scopes := r.2.scopes.tail })) ?_
  rintro σ ⟨a, k⟩ m ⟨b, l⟩ n _ ⟨hkl, hab⟩
  exact .ok le_rfl ⟨hkl.withScopes (forall₂_tail hkl.scopes), hab⟩

/-- What an activation came to, as its caller sees it. -/
def leaving : Except RuntimeError α × Frame → Except RuntimeError α
  | (.ok a, _) => .ok a
  | (.error e, last) => .error (e.leave last.entry)

theorem activate_run {H : Type} (k : Frame) (x : Script H α) :
    (Script.activate k x).run = x.run.run k >>= fun r => Pure.pure (leaving r) := by
  funext m
  change EStateM.bind _ _ m = EStateM.bind _ _ m
  unfold EStateM.bind
  rcases x.run.run k m with ⟨⟨_ | _, _⟩, _⟩ | _ <;> rfl

theorem activate {k l : Frame} {x : Script H₁ α} {y : Script H₂ β} (hkl : k.Alike ρ moduleName l)
    (h : ScriptSim S ρ moduleName P x y) :
    RunSim S ρ P (Script.activate k x) (Script.activate l y) := by
  intro m n hmn
  rw [activate_run, activate_run]
  refine (h k l m n hkl hmn).bind
    (f := fun r => Pure.pure (leaving r)) (g := fun r => Pure.pure (leaving r)) ?_
  rintro σ ⟨_, k⟩ m ⟨_, l⟩ n _ ⟨hkl, ⟨hmn, hab⟩ | @⟨e, _, _, hmn⟩⟩
  · exact .ok le_rfl (.ok hmn hab)
  · have entry : k.entry = l.entry := hkl.entry
    refine .ok le_rfl ?_
    simp only [leaving, entry]
    exact .fault hmn

end ScriptSim
end ScriptHost
