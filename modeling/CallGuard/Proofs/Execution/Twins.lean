import Mathlib.Data.List.Forall2
import CallGuard.Proofs.Execution.Stages
import CallGuard.Execution.Group

/-!
# Two engines side by side

Calls act on the registry, but never look at it. To say so, two runs are compared. They use circuits that are twins: with
the same limits, but with handles into two registries, and with numbers that correspond (`Comparison.Twinned`). Everything
that contains circuits is a twin if it is the same but for these (`Work.Twin`, `Suspended.Twin`, `Task.Twin` and so on,
constructor by constructor). Two engines are `Level` if they have the same clock and the same signals, and the same
permits for twins; their registries need only stand in some relation that the same report to two twins keeps.

* **Acts**: the elementary acts keep engines level, and what they answer is the same.
* **Polls** (`Work.sim_start`, `Suspended.sim_poll`): twins that are polled in level engines remain twins, and end
  alike if they end.
* **Runs** (`Engine.even_run`): so do groups of twins. Their answers are the same, except for the readings of counters.
-/

namespace CallGuard

variable {α : Type}

/-! ## Twins -/

/-- How two engines are compared: by the circuits of each that were created from a number on, and by a relation of
their registries. -/
structure Comparison where
  first : Nat
  second : Nat
  registries : Registry → Registry → Prop

/-- The circuits of these numbers correspond to each other. -/
def Comparison.Same (C : Comparison) (i₁ i₂ : Nat) : Prop := ∃ n, i₁ = C.first + n ∧ i₂ = C.second + n

/-- Twins have numbers that correspond and the same limits, and the same report to both keeps the relation of their
registries. -/
structure Comparison.Twinned (T : Circuit → Circuit → Prop) (C : Comparison) : Prop where
  same : ∀ {c₁ c₂}, T c₁ c₂ → C.Same c₁.id c₂.id
  limits_eq : ∀ {c₁ c₂}, T c₁ c₂ → c₂.limits = c₁.limits
  note : ∀ {r₁ r₂} (x₁ x₂ : Event), C.registries r₁ r₂ → C.registries (r₁.note x₁) (r₂.note x₂)
  report : ∀ {r₁ r₂ c₁ c₂} (o : CallOutcome) (t : Int), T c₁ c₂ → C.registries r₁ r₂ →
    C.registries (r₁.report c₁.handle o t) (r₂.report c₂.handle o t)
  reportFallback : ∀ {r₁ r₂ c₁ c₂} (o : FallbackOutcome) (t : Int), T c₁ c₂ → C.registries r₁ r₂ →
    C.registries (r₁.reportFallback c₁.handle o t) (r₂.reportFallback c₂.handle o t)

/-- Two engines have the same clock and the same signals, and for circuits that correspond the same permits. -/
structure Engine.Level (C : Comparison) (e₁ e₂ : Engine) : Prop where
  now_eq : e₂.now = e₁.now
  signals_eq : e₂.signals = e₁.signals
  created : C.Same e₁.created e₂.created
  permits_eq : ∀ {i₁ i₂}, C.Same i₁ i₂ → ∀ p, e₂.permits.get (i₂, p) = e₁.permits.get (i₁, p)
  registries : C.registries e₁.registry e₂.registry

section Relations

variable (T : Circuit → Circuit → Prop)

/-- The same work, but for its circuits. -/
inductive Work.Twin : Work α → Work α → Prop
  | done (r : WorkResult α) : Twin (.done r) (.done r)
  | hang : Twin .hang .hang
  | raise (signal : String) {w₁ w₂ : Work α} : Twin w₁ w₂ → Twin (.raise signal w₁) (.raise signal w₂)
  | wait (ms : Nat) {w₁ w₂ : Work α} : Twin w₁ w₂ → Twin (.wait ms w₁) (.wait ms w₂)
  | call (d : Context.Derivation) {c₁ c₂ : Circuit} {w₁ w₂ : Work α} : T c₁ c₂ → Twin w₁ w₂ →
      Twin (.call c₁ d w₁) (.call c₂ d w₂)
  | callOr (d : Context.Derivation) {c₁ c₂ : Circuit} {w₁ w₂ r₁ r₂ : Work α} : T c₁ c₂ → Twin w₁ w₂ → Twin r₁ r₂ →
      Twin (.callOr c₁ d w₁ r₁) (.callOr c₂ d w₂ r₂)

/-- The same stage, but for the circuits of the fallback. -/
inductive Stage.Twin : Stage α → Stage α → Prop
  | primary (due : Nat) {r₁ r₂ : Option (Work α)} : Option.Rel (Work.Twin T) r₁ r₂ →
      Twin (.primary due r₁) (.primary due r₂)
  | fallback (cause : CallError) : Twin (.fallback cause) (.fallback cause)

/-- The same suspended work, but for its circuits. -/
inductive Suspended.Twin : Suspended α → Suspended α → Prop
  | waiting (due : Nat) {w₁ w₂ : Work α} : Work.Twin T w₁ w₂ → Twin (.waiting due w₁) (.waiting due w₂)
  | hanging : Twin .hanging .hanging
  | calling (x : Context) {c₁ c₂ : Circuit} {g₁ g₂ : Stage α} {s₁ s₂ : Suspended α} : T c₁ c₂ → Stage.Twin T g₁ g₂ →
      Twin s₁ s₂ → Twin (.calling ⟨c₁, x⟩ g₁ s₁) (.calling ⟨c₂, x⟩ g₂ s₂)

/-- The same suspended call, but for its circuits. -/
inductive InFlight.Twin : InFlight α → InFlight α → Prop
  | mk (x : Context) {c₁ c₂ : Circuit} {g₁ g₂ : Stage α} {s₁ s₂ : Suspended α} : T c₁ c₂ → Stage.Twin T g₁ g₂ →
      Suspended.Twin T s₁ s₂ → Twin ⟨⟨c₁, x⟩, g₁, s₁⟩ ⟨⟨c₂, x⟩, g₂, s₂⟩

/-- The same action, but for its circuits; a probe may be of anything. -/
inductive Action.Twin : Action α → Action α → Prop
  | call (d : Context.Derivation) {c₁ c₂ : Circuit} {w₁ w₂ : Work α} {r₁ r₂ : Option (Work α)} : T c₁ c₂ →
      Work.Twin T w₁ w₂ → Option.Rel (Work.Twin T) r₁ r₂ → Twin (.call ⟨c₁, d, w₁, r₁⟩) (.call ⟨c₂, d, w₂, r₂⟩)
  | cancel (signal : String) : Twin (.cancel signal) (.cancel signal)
  | observe (signal : String) : Twin (.observe signal) (.observe signal)
  | probe (h₁ h₂ : Handle) : Twin (.probe h₁) (.probe h₂)

/-- The same item, but for its circuits. -/
structure Item.Twin (i₁ i₂ : Item α) : Prop where
  start_eq : i₂.start = i₁.start
  action : Action.Twin T i₁.action i₂.action

/-- The same answer, but for the reading of a probe. -/
inductive Reply.Twin : Reply α → Reply α → Prop
  | call (r : CallReport α) : Twin (.call r) (.call r)
  | signal (s : Signal) : Twin (.signal s) (.signal s)
  | reading (c₁ c₂ : Option RegisteredCircuit) (t : Int) : Twin (.reading c₁ t) (.reading c₂ t)

/-- The same task, but for its circuits. -/
inductive Task.Twin : Task α → Task α → Prop
  | planned (start : Nat) {a₁ a₂ : Action α} : Action.Twin T a₁ a₂ → Twin (.planned start a₁) (.planned start a₂)
  | running {f₁ f₂ : InFlight α} : InFlight.Twin T f₁ f₂ → Twin (.running f₁) (.running f₂)
  | ended {r₁ r₂ : Reply α} : Reply.Twin r₁ r₂ → Twin (.ended r₁) (.ended r₂)

end Relations

/-- Both have ended alike, or twins are suspended. -/
inductive Progress.Twin {σ ρ : Type} (S : σ → σ → Prop) : Progress σ ρ → Progress σ ρ → Prop
  | suspended {s₁ s₂ : σ} : S s₁ s₂ → Twin S (.suspended s₁) (.suspended s₂)
  | finished (r : ρ) : Twin S (.finished r) (.finished r)

/-- Two polls leave twins and level engines. -/
structure Poll.Even {σ ρ : Type} (C : Comparison) (S : σ → σ → Prop)
    (q₁ q₂ : Progress σ ρ × Engine) : Prop where
  progress : Progress.Twin S q₁.1 q₂.1
  level : Engine.Level C q₁.2 q₂.2

/-- Two polls do the same in level engines. -/
def Poll.Sim {σ ρ : Type} (C : Comparison) (S : σ → σ → Prop) (p₁ p₂ : Poll σ ρ) : Prop :=
  ∀ ⦃e₁ e₂⦄, Engine.Level C e₁ e₂ → Even C S (p₁ e₁) (p₂ e₂)

/-- Two fallbacks are the same, but for their circuits. -/
structure Rescue.Twin (T : Circuit → Circuit → Prop) (C : Comparison) (r₁ r₂ : Rescue α) : Prop where
  work : Work.Twin T r₁.work r₂.work
  begin : Poll.Sim C (Suspended.Twin T) r₁.begin r₂.begin

variable {T : Circuit → Circuit → Prop} {C : Comparison}

theorem Comparison.Same.eq_iff {i₁ i₂ j₁ j₂ : Nat} (h : C.Same i₁ i₂) (h' : C.Same j₁ j₂) : j₂ = i₂ ↔ j₁ = i₁ := by
  obtain ⟨n, rfl, rfl⟩ := h
  obtain ⟨m, rfl, rfl⟩ := h'
  omega

/-! ## Acts in level engines -/

namespace Engine.Level

variable {e₁ e₂ : Engine} {c₁ c₂ : Circuit}

theorem instant_eq (h : Level C e₁ e₂) : e₂.instant = e₁.instant := by rw [instant, instant, h.now_eq]

theorem cancelled?_eq (h : Level C e₁ e₂) (x : Context) : e₂.cancelled? x = e₁.cancelled? x := by
  rw [cancelled?, cancelled?, h.signals_eq]

theorem interrupts_eq (h : Level C e₁ e₂) (x : Context) : e₂.interrupts x = e₁.interrupts x := by
  rw [interrupts, interrupts, h.now_eq, h.cancelled?_eq]

theorem wake (h : Level C e₁ e₂) (n : Nat) : Level C { e₁ with now := n } { e₂ with now := n } :=
  ⟨rfl, h.signals_eq, h.created, h.permits_eq, h.registries⟩

theorem cancel (h : Level C e₁ e₂) (signal : String) : Level C (e₁.cancel signal) (e₂.cancel signal) :=
  ⟨h.now_eq, congrArg (·.cancel signal) h.signals_eq, h.created, h.permits_eq, h.registries⟩

theorem enter (h : Level C e₁ e₂) (x : Context) : Level C (e₁.enter x) (e₂.enter x) := by
  unfold Engine.enter
  split
  · rename_i s _
    exact ⟨h.now_eq, congrArg (·.enter s) h.signals_eq, h.created, h.permits_eq, h.registries⟩
  · exact h

theorem leave (h : Level C e₁ e₂) (x : Context) : Level C (e₁.leave x) (e₂.leave x) := by
  unfold Engine.leave
  split
  · rename_i s _
    exact ⟨h.now_eq, congrArg (·.leave s) h.signals_eq, h.created, h.permits_eq, h.registries⟩
  · exact h

variable (hT : Comparison.Twinned T C)
include hT

theorem limiter_eq (h : Level C e₁ e₂) (hc : T c₁ c₂) (p : Part) : e₂.limiter c₂ p = e₁.limiter c₁ p := by
  have hmax : c₂.maxOf p = c₁.maxOf p := by cases p <;> simp only [Circuit.maxOf, hT.limits_eq hc]
  rw [limiter, limiter, hmax, h.permits_eq (hT.same hc)]

theorem putLimiter (h : Level C e₁ e₂) (hc : T c₁ c₂) (p : Part) (l : Limiter) :
    Level C (e₁.putLimiter c₁ p l) (e₂.putLimiter c₂ p l) := by
  refine ⟨h.now_eq, h.signals_eq, h.created, fun hi q => ?_, h.registries⟩
  simp only [Engine.putLimiter, Table.get_update, Prod.mk.injEq, (hT.same hc).eq_iff hi, h.permits_eq hi]

theorem release (h : Level C e₁ e₂) (hc : T c₁ c₂) (p : Part) : Level C (e₁.release c₁ p) (e₂.release c₂ p) := by
  rw [Engine.release, Engine.release, h.limiter_eq hT hc]
  exact h.putLimiter hT hc p _

/-- A permit is free in both, or in neither. -/
theorem acquire?_cases (h : Level C e₁ e₂) (hc : T c₁ c₂) (p : Part) :
    (e₁.acquire? c₁ p = none ∧ e₂.acquire? c₂ p = none) ∨
      ∃ e₁' e₂', e₁.acquire? c₁ p = some e₁' ∧ e₂.acquire? c₂ p = some e₂' ∧ Level C e₁' e₂' := by
  rw [acquire?, acquire?, h.limiter_eq hT hc]
  cases (e₁.limiter c₁ p).acquire? with
  | none => exact .inl ⟨rfl, rfl⟩
  | some l => exact .inr ⟨_, _, rfl, rfl, h.putLimiter hT hc p l⟩

theorem note (h : Level C e₁ e₂) (x₁ x₂ : Event) : Level C (e₁.note x₁) (e₂.note x₂) :=
  ⟨h.now_eq, h.signals_eq, h.created, h.permits_eq, hT.note x₁ x₂ h.registries⟩

theorem report (h : Level C e₁ e₂) (hc : T c₁ c₂) (o : CallOutcome) : Level C (e₁.report c₁ o) (e₂.report c₂ o) := by
  refine ⟨h.now_eq, h.signals_eq, h.created, h.permits_eq, ?_⟩
  rw [Engine.report, Engine.report, h.instant_eq]
  exact hT.report o _ hc h.registries

theorem reportFallback (h : Level C e₁ e₂) (hc : T c₁ c₂) (o : FallbackOutcome) :
    Level C (e₁.reportFallback c₁ o) (e₂.reportFallback c₂ o) := by
  refine ⟨h.now_eq, h.signals_eq, h.created, h.permits_eq, ?_⟩
  rw [Engine.reportFallback, Engine.reportFallback, h.instant_eq]
  exact hT.reportFallback o _ hc h.registries

theorem closePrimary (h : Level C e₁ e₂) (hc : T c₁ c₂) (x : Context) (o : CallOutcome) :
    Level C (Frame.closePrimary ⟨c₁, x⟩ o e₁) (Frame.closePrimary ⟨c₂, x⟩ o e₂) := by
  have hreport := h.report hT hc o
  unfold Frame.closePrimary
  dsimp only
  split
  · exact hreport.release hT hc .primary
  · exact (hreport.note hT _ _).release hT hc .primary

theorem closeFallback (h : Level C e₁ e₂) (hc : T c₁ c₂) (x : Context) (o : FallbackOutcome) :
    Level C (Frame.closeFallback ⟨c₁, x⟩ o e₁) (Frame.closeFallback ⟨c₂, x⟩ o e₂) := by
  have hreport := h.reportFallback hT hc o
  unfold Frame.closeFallback
  dsimp only
  split
  · exact hreport.release hT hc .fallback
  · exact (hreport.note hT _ _).release hT hc .fallback

theorem abandon {s₁ s₂ : Suspended α} (hs : Suspended.Twin T s₁ s₂) (h : Level C e₁ e₂) :
    Level C (s₁.abandon e₁) (s₂.abandon e₂) := by
  induction hs with
  | waiting | hanging => exact h
  | @calling x _ _ g₁ g₂ _ _ hc hg _ ih =>
    have hpart : g₂.part = g₁.part := by cases hg <;> rfl
    rw [Suspended.abandon, Suspended.abandon, hpart]
    exact (ih.leave x).release hT hc _

end Engine.Level

/-! ## The stages of twins -/

namespace Frame

variable {c₁ c₂ : Circuit} {x : Context} {e₁ e₂ : Engine} {rescue₁ rescue₂ : Option (Rescue α)}
  {begin₁ begin₂ : Poll (Suspended α) (WorkResult α)} {p₁ p₂ : Progress (Suspended α) (WorkResult α)}
  (hT : Comparison.Twinned T C)
include hT

theorem even_settleFallback (hc : T c₁ c₂) (cause : CallError) (hp : Progress.Twin (Suspended.Twin T) p₁ p₂)
    (h : Engine.Level C e₁ e₂) : Poll.Even C (InFlight.Twin T)
      (settleFallback ⟨c₁, x⟩ cause p₁ e₁) (settleFallback ⟨c₂, x⟩ cause p₂ e₂) := by
  cases hp with
  | finished r => exact ⟨.finished _, h.closeFallback hT hc x _⟩
  | suspended hs =>
    cases hi : e₁.interrupts x with
    | true =>
      rw [settleFallback_interrupted hi, settleFallback_interrupted ((h.interrupts_eq x).trans hi)]
      exact ⟨.finished _, (h.abandon hT hs).closeFallback hT hc x _⟩
    | false =>
      rw [settleFallback_suspended hi, settleFallback_suspended ((h.interrupts_eq x).trans hi)]
      exact ⟨.suspended (.mk x hc (.fallback cause) hs), h.enter x⟩

theorem even_startFallback (hc : T c₁ c₂) (cause : CallError) (hb : Poll.Sim C (Suspended.Twin T) begin₁ begin₂)
    (h : Engine.Level C e₁ e₂) : Poll.Even C (InFlight.Twin T)
      (startFallback ⟨c₁, x⟩ cause begin₁ e₁) (startFallback ⟨c₂, x⟩ cause begin₂ e₂) := by
  rcases h.acquire?_cases hT hc .fallback with ⟨h₁, h₂⟩ | ⟨e₁', e₂', h₁, h₂, h'⟩
  · rw [startFallback_of_full h₁, startFallback_of_full h₂]
    exact ⟨.finished _, h.reportFallback hT hc _⟩
  · rw [startFallback_of_acquired h₁, startFallback_of_acquired h₂]
    exact even_settleFallback hT hc cause (hb h').progress (hb h').level

theorem even_afterPrimary (hc : T c₁ c₂) (result : CallResult α)
    (hr : Option.Rel (Rescue.Twin T C) rescue₁ rescue₂) (h : Engine.Level C e₁ e₂) : Poll.Even C (InFlight.Twin T)
      (afterPrimary ⟨c₁, x⟩ result rescue₁ e₁) (afterPrimary ⟨c₂, x⟩ result rescue₂ e₂) := by
  cases hr with
  | none =>
    have hnone : ∀ (f : Frame) (e : Engine), f.afterPrimary result none e = (.finished ⟨result, none, result⟩, e) :=
      fun f e => afterPrimary_of_not_allowed fun _ _ _ hr => absurd hr (Option.some_ne_none _).symm
    rw [hnone, hnone]
    exact ⟨.finished _, h⟩
  | @some r₁ r₂ hr =>
    rcases allowed_or_not result (some r₁) with ⟨cause, r, rfl, -, hallows⟩ | hnot
    · rw [afterPrimary_of_allowed hallows, afterPrimary_of_allowed hallows]
      exact even_startFallback hT hc cause hr.begin h
    · rw [afterPrimary_of_not_allowed hnot,
        afterPrimary_of_not_allowed fun cause _ hcause _ => hnot cause r₁ hcause rfl]
      exact ⟨.finished _, h⟩

theorem even_settlePrimary (hc : T c₁ c₂) (due : Nat) (hr : Option.Rel (Rescue.Twin T C) rescue₁ rescue₂)
    (hp : Progress.Twin (Suspended.Twin T) p₁ p₂) (h : Engine.Level C e₁ e₂) : Poll.Even C (InFlight.Twin T)
      (settlePrimary ⟨c₁, x⟩ due rescue₁ p₁ e₁) (settlePrimary ⟨c₂, x⟩ due rescue₂ p₂ e₂) := by
  -- the result of an ending depends on the limits, which are the same
  have hend : ∀ (z : Ending α) {e₁ e₂ : Engine}, Engine.Level C e₁ e₂ → Poll.Even C (InFlight.Twin T)
      (afterPrimary ⟨c₁, x⟩ (z.result c₁.limits) rescue₁ (closePrimary ⟨c₁, x⟩ z.outcome e₁))
      (afterPrimary ⟨c₂, x⟩ (z.result c₂.limits) rescue₂ (closePrimary ⟨c₂, x⟩ z.outcome e₂)) := fun z _ _ h => by
    rw [hT.limits_eq hc]
    exact even_afterPrimary hT hc _ hr (h.closePrimary hT hc x _)
  cases hp with
  | finished r => exact hend (.own r) h
  | suspended hs =>
    by_cases hd : due ≤ e₁.now
    · rw [settlePrimary_timedOut hd, settlePrimary_timedOut (h.now_eq.symm ▸ hd)]
      exact hend .timedOut (h.abandon hT hs)
    · have hd₂ : e₂.now < due := by rw [h.now_eq]; omega
      cases hi : e₁.interrupts x with
      | true =>
        rw [settlePrimary_interrupted (by omega) hi, settlePrimary_interrupted hd₂ ((h.interrupts_eq x).trans hi)]
        exact hend .interrupted (h.abandon hT hs)
      | false =>
        rw [settlePrimary_suspended (by omega) hi, settlePrimary_suspended hd₂ ((h.interrupts_eq x).trans hi)]
        refine ⟨.suspended (.mk x hc (.primary due ?_) hs), h.enter x⟩
        cases hr with
        | none => exact .none
        | some hr => exact .some hr.work

theorem sim_startCall (hc : T c₁ c₂) (hb : Poll.Sim C (Suspended.Twin T) begin₁ begin₂)
    (hr : Option.Rel (Rescue.Twin T C) rescue₁ rescue₂) :
    Poll.Sim C (InFlight.Twin T) (startCall ⟨c₁, x⟩ begin₁ rescue₁) (startCall ⟨c₂, x⟩ begin₂ rescue₂) := by
  intro e₁ e₂ h
  have hlimits := hT.limits_eq hc
  cases hopen : c₁.limits.forceOpen with
  | true =>
    rw [startCall_of_open hopen, startCall_of_open (by rwa [hlimits])]
    exact even_afterPrimary hT hc _ hr (h.report hT hc _)
  | false =>
    rcases h.acquire?_cases hT hc .primary with ⟨h₁, h₂⟩ | ⟨e₁', e₂', h₁, h₂, h'⟩
    · rw [startCall_of_full hopen h₁, startCall_of_full (by rwa [hlimits]) h₂]
      exact even_afterPrimary hT hc _ hr (h.report hT hc _)
    · rw [startCall_of_acquired hopen h₁, startCall_of_acquired (by rwa [hlimits]) h₂, h'.now_eq, hlimits]
      exact even_settlePrimary hT hc _ hr (hb h').progress (hb h').level

end Frame

/-! ## Polls of twins -/

/-- A call inside work is as far as the work that made it. -/
theorem Poll.Even.ofCall {q₁ q₂ : Progress (InFlight α) (Completion α) × Engine}
    (h : Even C (InFlight.Twin T) q₁ q₂) :
    Even C (Suspended.Twin T) (q₁.1.ofCall, q₁.2) (q₂.1.ofCall, q₂.2) := by
  obtain ⟨p₁, e₁⟩ := q₁
  obtain ⟨p₂, e₂⟩ := q₂
  obtain ⟨hp, hlevel⟩ := h
  refine ⟨?_, hlevel⟩
  cases hp with
  | suspended hs =>
    cases hs with
    | mk x hc hg hs => exact .suspended (.calling x hc hg hs)
  | finished r => exact .finished _

section Polls

variable (hT : Comparison.Twinned T C)
include hT

/-- **Twins that are begun** in level engines go the same way. -/
theorem Work.sim_start {w₁ w₂ : Work α} (hw : Work.Twin T w₁ w₂) (x : Context) :
    Poll.Sim C (Suspended.Twin T) (w₁.start x) (w₂.start x) := by
  induction hw generalizing x with
  | done r => exact fun _ _ h => ⟨.finished r, h⟩
  | hang => exact fun _ _ h => ⟨.suspended .hanging, h⟩
  | raise signal _ ih => exact fun _ _ h => ih x (h.cancel signal)
  | wait ms hw ih =>
    intro e₁ e₂ h
    simp only [Work.start, h.now_eq]
    split
    · exact ih x h
    · exact ⟨.suspended (.waiting _ hw), h⟩
  | call d hc _ ih =>
    intro e₁ e₂ h
    simp only [Work.start, h.now_eq]
    exact (Frame.sim_startCall hT hc (ih _) .none h).ofCall
  | callOr d hc _ hr ih ihr =>
    intro e₁ e₂ h
    simp only [Work.start, h.now_eq]
    exact (Frame.sim_startCall hT hc (ih _) (.some ⟨hr, ihr _⟩) h).ofCall

theorem Rescue.twin_map {w₁ w₂ : Option (Work α)} (hw : Option.Rel (Work.Twin T) w₁ w₂) (x : Context) :
    Option.Rel (Rescue.Twin T C) (w₁.map fun w => ⟨w, w.start x⟩) (w₂.map fun w => ⟨w, w.start x⟩) := by
  cases hw with
  | none => exact .none
  | some hw => exact .some ⟨hw, Work.sim_start hT hw x⟩

theorem Frame.even_settle {c₁ c₂ : Circuit} {x : Context} {g₁ g₂ : Stage α} {e₁ e₂ : Engine}
    {p₁ p₂ : Progress (Suspended α) (WorkResult α)} (hc : T c₁ c₂) (hg : Stage.Twin T g₁ g₂)
    (hp : Progress.Twin (Suspended.Twin T) p₁ p₂) (h : Engine.Level C e₁ e₂) :
    Poll.Even C (InFlight.Twin T) (settle ⟨c₁, x⟩ g₁ p₁ e₁) (settle ⟨c₂, x⟩ g₂ p₂ e₂) := by
  cases hg with
  | primary due hr => exact even_settlePrimary hT hc due (Rescue.twin_map hT hr x) hp h
  | fallback cause => exact even_settleFallback hT hc cause hp h

/-- **Twins that are polled** in level engines go the same way. -/
theorem Suspended.sim_poll {s₁ s₂ : Suspended α} (hs : Suspended.Twin T s₁ s₂) (x : Context) :
    Poll.Sim C (Suspended.Twin T) (s₁.poll x) (s₂.poll x) := by
  induction hs generalizing x with
  | waiting due hw =>
    intro e₁ e₂ h
    simp only [Suspended.poll, h.now_eq]
    split
    · exact Work.sim_start hT hw x h
    · exact ⟨.suspended (.waiting due hw), h⟩
  | hanging => exact fun _ _ h => ⟨.suspended .hanging, h⟩
  | calling y hc hg _ ih =>
    intro e₁ e₂ h
    have hinner := ih y (h.leave y)
    exact (Frame.even_settle hT hc hg hinner.progress hinner.level).ofCall

theorem InFlight.sim_poll {f₁ f₂ : InFlight α} (hf : InFlight.Twin T f₁ f₂) :
    Poll.Sim C (InFlight.Twin T) f₁.poll f₂.poll := by
  cases hf with
  | mk x hc hg hs =>
    intro e₁ e₂ h
    have hinner := Suspended.sim_poll hT hs x (h.leave x)
    exact Frame.even_settle hT hc hg hinner.progress hinner.level

theorem Call.sim_start {c₁ c₂ : Circuit} {d : Context.Derivation} {w₁ w₂ : Work α} {r₁ r₂ : Option (Work α)}
    (hc : T c₁ c₂) (hw : Work.Twin T w₁ w₂) (hr : Option.Rel (Work.Twin T) r₁ r₂) (x : Context) :
    Poll.Sim C (InFlight.Twin T) (Call.start ⟨c₁, d, w₁, r₁⟩ x) (Call.start ⟨c₂, d, w₂, r₂⟩ x) :=
  Frame.sim_startCall hT hc (Work.sim_start hT hw x) (Rescue.twin_map hT hr x)

end Polls

/-! ## How far twins have to go -/

theorem Work.Twin.size_eq {w₁ w₂ : Work α} (h : Work.Twin T w₁ w₂) : w₂.size = w₁.size := by
  induction h with
  | done | hang => rfl
  | raise _ _ ih | wait _ _ ih | call _ _ _ ih => simp only [Work.size, ih]
  | callOr _ _ _ _ ih ihr => simp only [Work.size, ih, ihr]

theorem Suspended.Twin.size_eq {s₁ s₂ : Suspended α} (h : Suspended.Twin T s₁ s₂) : s₂.size = s₁.size := by
  induction h with
  | waiting _ hw => simp only [Suspended.size, hw.size_eq]
  | hanging => rfl
  | calling _ _ hg _ ih =>
    cases hg with
    | primary _ hr =>
      cases hr with
      | none => simp only [Suspended.size, ih]
      | some hr => simp only [Suspended.size, ih, hr.size_eq]
    | fallback => simp only [Suspended.size, ih]

theorem Suspended.Twin.wakes_eq {s₁ s₂ : Suspended α} (h : Suspended.Twin T s₁ s₂) : s₂.wakes = s₁.wakes := by
  induction h with
  | waiting | hanging => rfl
  | calling _ _ hg _ ih => cases hg <;> simp only [Suspended.wakes, Stage.wakes, ih]

namespace Task

theorem Twin.size_eq {t₁ t₂ : Task α} (h : Twin T t₁ t₂) : t₂.size = t₁.size := by
  cases h with
  | planned _ ha =>
    cases ha with
    | call _ _ hw hr =>
      cases hr with
      | none => simp only [size, hw.size_eq, Option.map_none]
      | some hr => simp only [size, hw.size_eq, hr.size_eq, Option.map_some]
    | cancel | observe | probe => rfl
  | running hf =>
    cases hf with
    | mk x hc hg hs => exact (Suspended.Twin.calling x hc hg hs).size_eq
  | ended => rfl

theorem Twin.wakes_eq {t₁ t₂ : Task α} (h : Twin T t₁ t₂) : t₂.wakes = t₁.wakes := by
  cases h with
  | planned | ended => rfl
  | running hf =>
    cases hf with
    | mk x hc hg hs => exact (Suspended.Twin.calling x hc hg hs).wakes_eq

theorem sizeAll_eq {ts₁ ts₂ : List (Task α)} (h : List.Forall₂ (Twin T) ts₁ ts₂) : sizeAll ts₂ = sizeAll ts₁ := by
  induction h with
  | nil => rfl
  | cons ht _ ih => rw [sizeAll, sizeAll, ht.size_eq, ih]

theorem nextWake_eq {ts₁ ts₂ : List (Task α)} (h : List.Forall₂ (Twin T) ts₁ ts₂) (now : Nat) :
    nextWake ts₂ now = nextWake ts₁ now := by
  have hwakes : ts₂.flatMap wakes = ts₁.flatMap wakes := by
    induction h with
    | nil => rfl
    | cons ht _ ih => rw [List.flatMap_cons, List.flatMap_cons, ht.wakes_eq, ih]
  rw [nextWake, nextWake, hwakes]

/-! ## Groups of twins -/

/-- Twins that are polled leave a pair like this. -/
structure Even (C : Comparison) (T : Circuit → Circuit → Prop) (q₁ q₂ : Task α × Engine) : Prop where
  twin : Twin T q₁.1 q₂.1
  level : Engine.Level C q₁.2 q₂.2

/-- Groups of twins that are polled leave a pair like this. -/
structure EvenAll (C : Comparison) (T : Circuit → Circuit → Prop) (q₁ q₂ : List (Task α) × Engine) :
    Prop where
  twins : List.Forall₂ (Twin T) q₁.1 q₂.1
  level : Engine.Level C q₁.2 q₂.2

theorem even_ofProgress {q₁ q₂ : Progress (InFlight α) (Completion α) × Engine} (x : Context)
    (h : Poll.Even C (InFlight.Twin T) q₁ q₂) : Even C T (ofProgress x q₁) (ofProgress x q₂) := by
  obtain ⟨p₁, e₁⟩ := q₁
  obtain ⟨p₂, e₂⟩ := q₂
  obtain ⟨hp, hlevel⟩ := h
  cases hp with
  | suspended hf => exact ⟨.running hf, hlevel⟩
  | finished r =>
    have hnow : e₂.now = e₁.now := hlevel.now_eq
    refine ⟨?_, hlevel⟩
    simp only [ofProgress, hlevel.cancelled?_eq, hnow]
    exact .ended (.call _)

variable (hT : Comparison.Twinned T C)
include hT

theorem even_poll {t₁ t₂ : Task α} {e₁ e₂ : Engine} (ht : Twin T t₁ t₂) (h : Engine.Level C e₁ e₂) :
    Even C T (t₁.poll e₁) (t₂.poll e₂) := by
  cases ht with
  | planned start ha =>
    simp only [poll, h.now_eq]
    split
    · cases ha with
      | call d hc hw hr =>
        simp only [Action.start, h.now_eq]
        exact even_ofProgress _ (Call.sim_start hT hc hw hr _ h)
      | cancel signal =>
        have hsignals := (h.cancel signal).signals_eq
        simp only [Action.start, hsignals]
        exact ⟨.ended (.signal _), h.cancel signal⟩
      | observe signal =>
        simp only [Action.start, h.signals_eq]
        exact ⟨.ended (.signal _), h⟩
      | probe h₁ h₂ =>
        simp only [Action.start, h.instant_eq]
        exact ⟨.ended (.reading _ _ _), h⟩
    · exact ⟨.planned start ha, h⟩
  | running hf =>
    have heven := InFlight.sim_poll hT hf h
    cases hf with
    | mk x => exact even_ofProgress x heven
  | ended hr => exact ⟨.ended hr, h⟩

theorem even_pollAll {ts₁ ts₂ : List (Task α)} {e₁ e₂ : Engine} (hts : List.Forall₂ (Twin T) ts₁ ts₂)
    (h : Engine.Level C e₁ e₂) : EvenAll C T (pollAll ts₁ e₁) (pollAll ts₂ e₂) := by
  induction hts generalizing e₁ e₂ with
  | nil => exact ⟨.nil, h⟩
  | cons ht _ ih =>
    have hfirst := even_poll hT ht h
    have hrest := ih hfirst.level
    exact ⟨.cons hfirst.twin hrest.twins, hrest.level⟩

theorem even_settleAll (fuel : Nat) {ts₁ ts₂ : List (Task α)} {e₁ e₂ : Engine}
    (hts : List.Forall₂ (Twin T) ts₁ ts₂) (h : Engine.Level C e₁ e₂) :
    EvenAll C T (settleAll fuel ts₁ e₁) (settleAll fuel ts₂ e₂) := by
  induction fuel generalizing ts₁ ts₂ e₁ e₂ with
  | zero => exact ⟨hts, h⟩
  | succ fuel ih =>
    have hround := even_pollAll hT hts h
    simp only [settleAll, hround.level.signals_eq, h.signals_eq]
    split
    · exact hround
    · exact ih hround.twins hround.level

theorem even_runAll (fuel : Nat) {ts₁ ts₂ : List (Task α)} {e₁ e₂ : Engine}
    (hts : List.Forall₂ (Twin T) ts₁ ts₂) (h : Engine.Level C e₁ e₂) :
    EvenAll C T (runAll fuel ts₁ e₁) (runAll fuel ts₂ e₂) := by
  induction fuel generalizing ts₁ ts₂ e₁ e₂ with
  | zero => exact ⟨hts, h⟩
  | succ fuel ih =>
    have hsettle := even_settleAll hT (sizeAll ts₁ + 1) hts h
    simp only [runAll, sizeAll_eq hts, nextWake_eq hsettle.twins, hsettle.level.now_eq]
    split
    · exact ih hsettle.twins (hsettle.level.wake _)
    · exact hsettle

end Task

/-- **Groups of twins** that are run in level engines are answered alike and leave level engines. -/
theorem Engine.even_run (hT : Comparison.Twinned T C) {items₁ items₂ : List (Item α)} {e₁ e₂ : Engine}
    (hitems : List.Forall₂ (Item.Twin T) items₁ items₂) (h : Engine.Level C e₁ e₂) :
    List.Forall₂ (Option.Rel Reply.Twin) (e₁.run items₁).1 (e₂.run items₂).1 ∧
      Engine.Level C (e₁.run items₁).2 (e₂.run items₂).2 := by
  have htasks : List.Forall₂ (Task.Twin T) (items₁.map fun i => Task.planned (e₁.now + i.start) i.action)
      (items₂.map fun i => Task.planned (e₂.now + i.start) i.action) := by
    rw [List.forall₂_map_left_iff, List.forall₂_map_right_iff]
    refine hitems.imp fun i₁ i₂ hi => ?_
    rw [h.now_eq, hi.start_eq]
    exact .planned _ hi.action
  simp only [run, Task.sizeAll_eq htasks]
  have heven := fun fuel => Task.even_runAll hT fuel htasks h
  refine ⟨?_, (heven _).level⟩
  rw [List.forall₂_map_left_iff, List.forall₂_map_right_iff]
  refine (heven _).twins.imp fun t₁ t₂ ht => ?_
  cases ht with
  | planned | running => exact .none
  | ended hr => exact .some hr

end CallGuard
