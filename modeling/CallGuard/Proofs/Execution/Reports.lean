import CallGuard.Proofs.Execution.Groups

/-!
# What calls do to the registry

A guarded call acts on the registry by reports through the handle of its circuit and by notes in the journal, and by
nothing else. So what these keep (`Registry.Kept`) is kept by every section of every thread
(`Thread.Section.keeps`), by every poll of a task (`Task.keeps_poll`), and by every group that is run
(`Engine.keeps_run`).
-/

namespace CallGuard

variable {α : Type}

/-- What holds of a registry after a note, and after a report through the handle of one of the circuits, if it did
before. -/
structure Registry.Kept (circuits : List Circuit) (P : Registry → Prop) : Prop where
  note : ∀ {r : Registry} (event : Event), P r → P (r.note event)
  report : ∀ {r : Registry} {c : Circuit} (o : CallOutcome) (t : Int), c ∈ circuits → P r → P (r.report c.handle o t)
  reportFallback : ∀ {r : Registry} {c : Circuit} (o : FallbackOutcome) (t : Int), c ∈ circuits → P r →
    P (r.reportFallback c.handle o t)

namespace Engine

variable (e : Engine) (x : Context)

@[simp] theorem registry_enter : (e.enter x).registry = e.registry := by
  unfold enter
  split <;> rfl

@[simp] theorem registry_leave : (e.leave x).registry = e.registry := by
  unfold leave
  split <;> rfl

theorem registry_acquire? {e e' : Engine} {c : Circuit} {p : Part} (h : e.acquire? c p = some e') :
    e'.registry = e.registry := by
  rw [(acquire?_eq_some_iff.mp h).2]
  rfl

end Engine

variable {circuits : List Circuit} {P : Registry → Prop} (hkept : Registry.Kept circuits P)
include hkept

/-! ## Sections -/

theorem Frame.keeps_closePrimary {f : Frame} (hf : f.circuit ∈ circuits) (o : CallOutcome) {e : Engine}
    (h : P e.registry) : P (f.closePrimary o e).registry := by
  unfold closePrimary
  dsimp only
  split
  · exact hkept.report o e.instant hf h
  · exact hkept.note _ (hkept.report o e.instant hf h)

theorem Frame.keeps_closeFallback {f : Frame} (hf : f.circuit ∈ circuits) (o : FallbackOutcome) {e : Engine}
    (h : P e.registry) : P (f.closeFallback o e).registry := by
  unfold closeFallback
  dsimp only
  split
  · exact hkept.reportFallback o e.instant hf h
  · exact hkept.note _ (hkept.reportFallback o e.instant hf h)

namespace Thread

variable {t t' : Thread α} {e e' : Engine}

/-- **A section** of a thread that stays with the circuits keeps what notes and reports keep. -/
theorem Section.keeps (hs : Section t e t' e') (ht : t.circuits ⊆ circuits) (h : P e.registry) : P e'.registry := by
  have hcontrol : ∀ {c}, c ∈ t.control.circuits → c ∈ circuits := fun hc => ht (List.mem_append_left _ hc)
  have hopen : ∀ {h : Holder α}, h ∈ t.opened → h.frame.circuit ∈ circuits := fun hmem =>
    ht (List.mem_append_right _ (List.mem_flatMap.mpr ⟨_, hmem, List.mem_cons_self⟩))
  cases hs with
  | callOpen | callFull => exact hkept.report _ _ (hcontrol List.mem_cons_self) h
  | rescueFull => exact hkept.reportFallback _ _ (hcontrol List.mem_cons_self) h
  | callTaken _ _ _ _ _ _ _ ha | rescueTaken _ _ _ _ _ _ ha => rwa [Engine.registry_acquire? ha]
  | closePrimary => exact Frame.keeps_closePrimary hkept (hopen List.mem_cons_self) _ h
  | closeFallback => exact Frame.keeps_closeFallback hkept (hopen List.mem_cons_self) _ h
  | wake | again => rwa [Engine.registry_leave]
  | rest => rwa [Engine.registry_enter]
  | shed =>
    change P (e.leave _).registry
    rwa [Engine.registry_leave]
  | _ => exact h

/-- Sections in a row keep it too, and the thread stays with the circuits. -/
theorem Turns.keeps {s s' : Thread α × Engine} (hturns : Turns s s') (ht : s.1.circuits ⊆ circuits)
    (h : P s.2.registry) : P s'.2.registry ∧ s'.1.circuits ⊆ circuits := by
  induction hturns with
  | refl => exact ⟨h, ht⟩
  | @tail s₁ s₂ _ hstep ih =>
    have hsection := s₁.1.section_step s₁.2
    rw [hstep] at hsection
    exact ⟨hsection.keeps hkept ih.2 ih.1, List.Subset.trans hsection.circuits_subset ih.2⟩

end Thread

/-! ## Groups -/

namespace Task

/-- The circuits that a task uses or may still use. -/
def mentions (t : Task α) : List Circuit := t.circuits ++ t.thread.circuits

omit hkept in
theorem mentions_ofProgress (x : Context) (q : Progress (InFlight α) (Completion α) × Engine) :
    (ofProgress x q).1.mentions ⊆ (Thread.ofProgress q.1).circuits := by
  obtain ⟨c | k, e⟩ := q
  · exact List.Subset.refl _
  · exact List.nil_subset _

/-- A poll that goes on in sections keeps what sections keep. -/
theorem keeps_ofProgress {t : Thread α} {e : Engine} (x : Context)
    {q : Progress (InFlight α) (Completion α) × Engine} (hturns : Thread.Turns (t, e) (.ofProgress q.1, q.2))
    (ht : t.circuits ⊆ circuits) (h : P e.registry) :
    P (ofProgress x q).2.registry ∧ (ofProgress x q).1.mentions ⊆ circuits := by
  obtain ⟨hkeep, hsub⟩ := hturns.keeps hkept ht h
  rw [ofProgress_snd]
  exact ⟨hkeep, List.Subset.trans (mentions_ofProgress x q) hsub⟩

/-- **A poll** of a task that stays with the circuits keeps what notes and reports keep. -/
theorem keeps_poll {t : Task α} {e : Engine} (ht : t.mentions ⊆ circuits) (h : P e.registry) :
    P (t.poll e).2.registry ∧ (t.poll e).1.mentions ⊆ circuits := by
  cases t with
  | planned start a =>
    simp only [poll]
    split
    · cases a with
      | call c =>
        have hcall : c.circuit :: (c.work.circuits ++ c.rescue.toList.flatMap Work.circuits) ++ [] ⊆ circuits :=
          fun d hd => ht (List.mem_append_left _ hd)
        exact keeps_ofProgress hkept _ (c.turns_start _ e) hcall h
      | cancel | observe | probe => exact ⟨h, List.nil_subset _⟩
    · exact ⟨h, ht⟩
  | running c => exact keeps_ofProgress hkept _ (c.turns_poll e) (fun d hd => ht (List.mem_append_right _ hd)) h
  | ended => exact ⟨h, ht⟩

theorem keeps_pollAll {ts : List (Task α)} {e : Engine} (hts : ∀ t ∈ ts, t.mentions ⊆ circuits) (h : P e.registry) :
    P (pollAll ts e).2.registry ∧ ∀ t ∈ (pollAll ts e).1, t.mentions ⊆ circuits := by
  induction ts generalizing e with
  | nil => exact ⟨h, hts⟩
  | cons t ts ih =>
    obtain ⟨hpoll, hmentions⟩ := keeps_poll hkept (hts t List.mem_cons_self) h
    obtain ⟨hrest, hall⟩ := ih (fun u hu => hts u (List.mem_cons_of_mem _ hu)) hpoll
    refine ⟨hrest, fun u hu => ?_⟩
    rcases List.mem_cons.mp hu with rfl | hu
    · exact hmentions
    · exact hall u hu

theorem keeps_settleAll (fuel : Nat) {ts : List (Task α)} {e : Engine} (hts : ∀ t ∈ ts, t.mentions ⊆ circuits)
    (h : P e.registry) :
    P (settleAll fuel ts e).2.registry ∧ ∀ t ∈ (settleAll fuel ts e).1, t.mentions ⊆ circuits := by
  induction fuel generalizing ts e with
  | zero => exact ⟨h, hts⟩
  | succ fuel ih =>
    obtain ⟨hpoll, hmentions⟩ := keeps_pollAll hkept hts h
    simp only [settleAll]
    split
    · exact ⟨hpoll, hmentions⟩
    · exact ih hmentions hpoll

theorem keeps_runAll (fuel : Nat) {ts : List (Task α)} {e : Engine} (hts : ∀ t ∈ ts, t.mentions ⊆ circuits)
    (h : P e.registry) : P (runAll fuel ts e).2.registry := by
  induction fuel generalizing ts e with
  | zero => exact h
  | succ fuel ih =>
    obtain ⟨hsettle, hmentions⟩ := keeps_settleAll hkept (sizeAll ts + 1) hts h
    simp only [runAll]
    split
    · exact ih hmentions hsettle
    · exact hsettle

end Task

/-- **A group** whose calls stay with the circuits keeps what notes and reports keep. -/
theorem Engine.keeps_run {items : List (Item α)} (hitems : ∀ i ∈ items, i.action.circuits ⊆ circuits) {e : Engine}
    (h : P e.registry) : P (e.run items).2.registry := by
  let tasks := items.map fun i => Task.planned (e.now + i.start) i.action
  have htasks : ∀ t ∈ tasks, t.mentions ⊆ circuits := by
    intro t ht
    obtain ⟨i, hi, rfl⟩ := List.mem_map.mp ht
    exact List.append_subset.mpr ⟨hitems i hi, List.nil_subset _⟩
  have hrun : P (Task.runAll (Task.sizeAll tasks + 1) tasks e).2.registry := Task.keeps_runAll hkept _ htasks h
  exact hrun

end CallGuard
