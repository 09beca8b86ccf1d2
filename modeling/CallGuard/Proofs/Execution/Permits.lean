import Mathlib.Tactic.Tauto
import CallGuard.Proofs.Execution.Signals
import CallGuard.Proofs.Execution.Threads

/-!
# What a section does to permits and signals

A permit is taken when a call is opened and given back when it is closed or given up; a call waits for the signal of its
context from the poll that suspends it to the next one. `Thread.Does` lists the six things that a section may do to the
calls of a thread, each with what it does to the engine.

**Main statements.** Every section does one of these (`Thread.Section.does`), so whatever it does to the calls that hold
a permit or wait, it does to the permits (`Thread.Does.permits_add`) and to the numbers of those who wait
(`Thread.Does.waiting_add`), and no limit is passed (`Thread.Does.permits_le`). A thread stays with its circuits
(`Thread.Section.circuits_subset`).
-/

namespace CallGuard

variable {α : Type}

/-- Where the permit of a call is counted. -/
def Holder.key (h : Holder α) : Nat × Part := (h.frame.circuit.id, h.stage.part)

/-! ## Permits and signals -/

namespace Engine

variable {e e' : Engine} {c : Circuit} {p : Part}

theorem permits_putLimiter (l : Limiter) (k : Nat × Part) :
    (e.putLimiter c p l).permits.get k = if (c.id, p) = k then l.active else e.permits.get k := by
  simp only [putLimiter, Table.get_update, eq_comm]

theorem permits_acquire? (h : e.acquire? c p = some e') (k : Nat × Part) :
    e'.permits.get k = e.permits.get k + if (c.id, p) = k then 1 else 0 := by
  rw [(acquire?_eq_some_iff.mp h).2, permits_putLimiter]
  split
  · next hk => rw [← hk]; rfl
  · rfl

/-- Before a permit is taken the limit is not reached. -/
theorem lt_of_acquire? {m : Nat} (h : e.acquire? c p = some e') (hm : c.maxOf p = some m) :
    e.permits.get (c.id, p) < m :=
  Nat.lt_of_not_le fun hle => (acquire?_eq_some_iff.mp h).1 ⟨m, hm, hle⟩

theorem acquire?_eq_none_iff : e.acquire? c p = none ↔ ∃ m, c.maxOf p = some m ∧ m ≤ e.permits.get (c.id, p) := by
  rw [acquire?, Option.map_eq_none_iff, Limiter.acquire?_eq_none_iff]
  rfl

theorem permits_release (k : Nat × Part) :
    (e.release c p).permits.get k = e.permits.get k - if (c.id, p) = k then 1 else 0 := by
  rw [release, permits_putLimiter]
  split
  · next hk => rw [← hk]; rfl
  · rfl

theorem created_acquire? (h : e.acquire? c p = some e') : e'.created = e.created := by
  rw [(acquire?_eq_some_iff.mp h).2]
  rfl

variable (x : Context)

theorem permits_enter : (e.enter x).permits = e.permits := by
  unfold enter
  split <;> rfl

theorem permits_leave : (e.leave x).permits = e.permits := by
  unfold leave
  split <;> rfl

theorem created_enter : (e.enter x).created = e.created := by
  unfold enter
  split <;> rfl

theorem created_leave : (e.leave x).created = e.created := by
  unfold leave
  split <;> rfl

theorem waiting_enter (n : String) : ((e.enter x).signals.get n).waiting =
    (e.signals.get n).waiting + if x.signal = some n then 1 else 0 := by
  unfold enter
  cases x.signal with
  | none => rfl
  | some s =>
    simp only [Signals.enter, Table.get_update, Option.some.injEq]
    by_cases h : n = s
    · simp only [h, if_true]
    · simp only [h, Ne.symm h, if_false, Nat.add_zero]

theorem waiting_leave (n : String) : ((e.leave x).signals.get n).waiting =
    (e.signals.get n).waiting - if x.signal = some n then 1 else 0 := by
  unfold leave
  cases x.signal with
  | none => rfl
  | some s =>
    simp only [Signals.leave, Table.get_update, Option.some.injEq]
    by_cases h : n = s
    · simp only [h, if_true]
    · simp only [h, Ne.symm h, if_false, Nat.sub_zero]

theorem waiting_cancel (s n : String) : ((e.cancel s).signals.get n).waiting = (e.signals.get n).waiting := by
  simp only [cancel, Signals.cancel, Table.get_update]
  split
  · next h => rw [h]
  · rfl

end Engine

/-! ## What a section does to the calls -/

namespace Thread

/-- What a section does to a thread and the engine. -/
inductive Does (t : Thread α) (e : Engine) (t' : Thread α) (e' : Engine) : Prop
  /-- The same calls hold a permit and wait. -/
  | goesOn (resting : t'.control.resting = t.control.resting) (opened : t'.opened = t.opened)
      (permits : e'.permits = e.permits)
      (waiting : ∀ n, (e'.signals.get n).waiting = (e.signals.get n).waiting) (created : e'.created = e.created)
  /-- A call takes a permit. -/
  | opens (h : Holder α) (resting : t'.control.resting = t.control.resting) (opened : t'.opened = h :: t.opened)
      (acquire : e.acquire? h.frame.circuit h.stage.part = some e')
  /-- The part of an open call ends. -/
  | closes (h : Holder α) (resting : t'.control.resting = t.control.resting) (opened : t.opened = h :: t'.opened)
      (permits : e'.permits = (e.release h.frame.circuit h.stage.part).permits) (signals : e'.signals = e.signals)
      (created : e'.created = e.created)
  /-- A suspended call is polled. -/
  | wakes (h : Holder α) (resting : t.control.resting = h :: t'.control.resting) (opened : t'.opened = h :: t.opened)
      (engine : e' = e.leave h.frame.context)
  /-- An open call is suspended. -/
  | rests (h : Holder α) (resting : t'.control.resting = h :: t.control.resting) (opened : t.opened = h :: t'.opened)
      (engine : e' = e.enter h.frame.context)
  /-- A suspended call is given up. -/
  | sheds (h : Holder α) (resting : t.control.resting = t'.control.resting ++ [h]) (opened : t'.opened = t.opened)
      (engine : e' = (e.leave h.frame.context).release h.frame.circuit h.stage.part)

theorem Does.refl (t : Thread α) (e : Engine) : Does t e t e := .goesOn rfl rfl rfl (fun _ => rfl) rfl

/-- Every section does one of these things. -/
theorem Section.does {t t' : Thread α} {e e' : Engine} (h : Section t e t' e') : Does t e t' e' := by
  cases h with
  | callTaken _ _ _ _ _ _ _ htaken | rescueTaken _ _ _ _ _ _ htaken => exact .opens _ rfl rfl htaken
  | raise signal => exact .goesOn rfl rfl rfl (Engine.waiting_cancel signal) rfl
  | wake f stage => exact .wakes ⟨f, stage⟩ rfl rfl rfl
  | again c => exact .wakes ⟨c.frame, c.stage⟩ rfl rfl rfl
  | rest s f stage => exact .rests ⟨f, stage⟩ rfl rfl rfl
  | shed s rest h _ _ _ hshed => exact .sheds h (Suspended.holders_of_shed? hshed) rfl rfl
  | gone s _ _ _ hshed => exact .goesOn (Suspended.holders_of_shed?_none hshed).symm rfl rfl (fun _ => rfl) rfl
  | closePrimary f due rescue =>
    refine .closes ⟨f, .primary due rescue⟩ rfl rfl ?_ ?_ ?_ <;> (unfold Frame.closePrimary; split <;> rfl)
  | closeFallback f cause =>
    refine .closes ⟨f, .fallback cause⟩ rfl rfl ?_ ?_ ?_ <;> (unfold Frame.closeFallback; split <;> rfl)
  | pass q => cases q <;> exact .goesOn rfl rfl rfl (fun _ => rfl) rfl
  | _ => exact .goesOn rfl rfl rfl (fun _ => rfl) rfl

namespace Does

variable {t t' : Thread α} {e e' : Engine}

theorem created_eq (hd : Does t e t' e') : e'.created = e.created := by
  cases hd with
  | goesOn _ _ _ _ hc | closes _ _ _ _ _ hc => exact hc
  | opens h _ _ ha => exact Engine.created_acquire? ha
  | wakes h _ _ he => rw [he, Engine.created_leave]
  | rests h _ _ he => rw [he, Engine.created_enter]
  | sheds h _ _ he => rw [he]; exact Engine.created_leave _

/-- Permits are taken and given back as calls come to hold one or hold one no longer. -/
theorem permits_add (hd : Does t e t' e') (k : Nat × Part)
    (hle : t.holders.countP (·.key = k) ≤ e.permits.get k) :
    e'.permits.get k + t.holders.countP (·.key = k) = e.permits.get k + t'.holders.countP (·.key = k) := by
  unfold holders at hle ⊢
  cases hd with
  | goesOn hr ho hp => rw [hr, ho, hp]
  | opens h hr ho ha =>
    have htaken : e'.permits.get k = e.permits.get k + if h.key = k then 1 else 0 := Engine.permits_acquire? ha k
    rw [hr, ho, htaken]
    simp only [List.countP_append, List.countP_cons, decide_eq_true_eq]
    omega
  | closes h hr ho hp =>
    have hgiven : e'.permits.get k = e.permits.get k - if h.key = k then 1 else 0 := by
      rw [hp]
      exact Engine.permits_release k
    rw [ho] at hle ⊢
    rw [hr, hgiven]
    simp only [List.countP_append, List.countP_cons, decide_eq_true_eq] at hle ⊢
    omega
  | wakes h hr ho he =>
    rw [hr, ho, he, Engine.permits_leave]
    simp only [List.countP_append, List.countP_cons]
    omega
  | rests h hr ho he =>
    rw [hr, ho, he, Engine.permits_enter]
    simp only [List.countP_append, List.countP_cons]
    omega
  | sheds h hr ho he =>
    have hgiven : e'.permits.get k = e.permits.get k - if h.key = k then 1 else 0 := by
      rw [he, Engine.permits_release, Engine.permits_leave]
      rfl
    rw [hr] at hle ⊢
    rw [ho, hgiven]
    simp only [List.countP_append, List.countP_cons, List.countP_nil, decide_eq_true_eq] at hle ⊢
    omega

/-- Calls begin and end to wait as they are suspended and polled. -/
theorem waiting_add (hd : Does t e t' e') (n : String)
    (hle : t.control.resting.countP (·.frame.context.signal = some n) ≤ (e.signals.get n).waiting) :
    (e'.signals.get n).waiting + t.control.resting.countP (·.frame.context.signal = some n) =
      (e.signals.get n).waiting + t'.control.resting.countP (·.frame.context.signal = some n) := by
  cases hd with
  | goesOn hr _ _ hw => rw [hr, hw]
  | opens h hr _ ha => rw [hr, Engine.signals_acquire? ha]
  | closes h hr _ _ hs => rw [hr, hs]
  | wakes h hr _ he =>
    rw [hr] at hle ⊢
    rw [he, Engine.waiting_leave]
    simp only [List.countP_cons, decide_eq_true_eq] at hle ⊢
    omega
  | rests h hr _ he =>
    rw [hr, he, Engine.waiting_enter]
    simp only [List.countP_cons, decide_eq_true_eq]
    omega
  | sheds h hr _ he =>
    have hw : e'.signals = (e.leave h.frame.context).signals := by rw [he]; rfl
    rw [hr] at hle ⊢
    rw [hw, Engine.waiting_leave]
    simp only [List.countP_append, List.countP_cons, List.countP_nil, decide_eq_true_eq] at hle ⊢
    omega

/-- A section takes no permit above the maximum of its circuit. -/
theorem permits_le (hd : Does t e t' e') {c : Circuit} {p : Part} {m : Nat} (hm : c.maxOf p = some m)
    (hsame : ∀ h ∈ t'.holders, h.frame.circuit.id = c.id → h.frame.circuit = c)
    (hle : e.permits.get (c.id, p) ≤ m) : e'.permits.get (c.id, p) ≤ m := by
  cases hd with
  | goesOn _ _ hp => rwa [hp]
  | opens h _ ho ha =>
    rw [Engine.permits_acquire? ha]
    split
    · next hk =>
      obtain ⟨hid, rfl⟩ := Prod.mk.inj hk
      have hc := hsame h (List.mem_append_right _ (ho ▸ List.mem_cons_self)) hid
      rw [← hc] at hm ⊢
      exact Engine.lt_of_acquire? ha hm
    · exact hle
  | closes h _ _ hp =>
    rw [hp, Engine.permits_release]
    exact Nat.le_trans (Nat.sub_le _ _) hle
  | wakes h _ _ he => rwa [he, Engine.permits_leave]
  | rests h _ _ he => rwa [he, Engine.permits_enter]
  | sheds h _ _ he =>
    rw [he, Engine.permits_release, Engine.permits_leave]
    exact Nat.le_trans (Nat.sub_le _ _) hle

end Does
end Thread

/-! ## Circuits -/

/-- The circuits whose calls work makes. -/
def Work.circuits : Work α → List Circuit
  | .done _ | .hang => []
  | .raise _ rest | .wait _ rest => rest.circuits
  | .call c _ work => c :: work.circuits
  | .callOr c _ work rescue => c :: (work.circuits ++ rescue.circuits)

/-- The circuits of the work that may follow a stage. -/
def Stage.circuits : Stage α → List Circuit
  | .primary _ rescue => rescue.toList.flatMap Work.circuits
  | .fallback _ => []

/-- The circuit of a call and those of the work that may follow. -/
def Holder.circuits (h : Holder α) : List Circuit := h.frame.circuit :: h.stage.circuits

/-- The circuits of suspended work. -/
def Suspended.circuits : Suspended α → List Circuit
  | .waiting _ rest => rest.circuits
  | .hanging => []
  | .calling f stage inner => f.circuit :: (stage.circuits ++ inner.circuits)

/-- The circuits of what a thread does next. -/
def Control.circuits : Control α → List Circuit
  | .call f work after => f.circuit :: (work.circuits ++ after.toList.flatMap Work.circuits)
  | .start work _ => work.circuits
  | .poll s _ | .settle (.suspended s) | .abandon s _ => s.circuits
  | .settle (.finished _) | .close _ | .answer (.finished _) => []
  | .decided f _ after => f.circuit :: after.toList.flatMap Work.circuits
  | .rescue f _ work => f.circuit :: work.circuits
  | .answer (.suspended c) => c.frame.circuit :: (c.stage.circuits ++ c.inner.circuits)

/-- The circuits that a thread uses and may still use. -/
def Thread.circuits (t : Thread α) : List Circuit := t.control.circuits ++ t.opened.flatMap Holder.circuits

theorem Suspended.circuits_of_shed? {s rest : Suspended α} {h : Holder α} (hshed : s.shed? = some (h, rest)) :
    rest.circuits ⊆ s.circuits := by
  induction s generalizing rest with
  | waiting | hanging => cases hshed
  | calling f stage inner ih =>
    cases hin : inner.shed? with
    | none =>
      simp only [shed?, hin, Option.some.injEq, Prod.mk.injEq] at hshed
      obtain ⟨-, rfl⟩ := hshed
      exact List.subset_cons_of_subset _ (List.subset_append_right _ _)
    | some found =>
      simp only [shed?, hin, Option.some.injEq, Prod.mk.injEq] at hshed
      obtain ⟨rfl, rfl⟩ := hshed
      intro c hc
      simp only [circuits, List.mem_cons, List.mem_append] at hc ⊢
      exact hc.imp_right (Or.imp_right fun h => ih hin h)

theorem Suspended.mem_circuits_of_mem_holders {s : Suspended α} {h : Holder α} (hmem : h ∈ s.holders) :
    h.frame.circuit ∈ s.circuits := by
  induction s with
  | waiting | hanging => cases hmem
  | calling f stage inner ih =>
    rcases List.mem_cons.mp hmem with rfl | hin
    · exact List.mem_cons_self
    · exact List.mem_cons_of_mem _ (List.mem_append_right _ (ih hin))

theorem Control.mem_circuits_of_mem_resting {control : Control α} {h : Holder α} (hmem : h ∈ control.resting) :
    h.frame.circuit ∈ control.circuits := by
  cases control with
  | poll s | abandon s => exact s.mem_circuits_of_mem_holders hmem
  | settle p =>
    cases p with
    | suspended s => exact s.mem_circuits_of_mem_holders hmem
    | finished r => cases hmem
  | answer q =>
    cases q with
    | suspended c => exact (Suspended.calling c.frame c.stage c.inner).mem_circuits_of_mem_holders hmem
    | finished k => cases hmem
  | _ => cases hmem

namespace Thread

/-- A call that holds a permit is one on a circuit of its thread. -/
theorem mem_circuits_of_mem_holders {t : Thread α} {h : Holder α} (hmem : h ∈ t.holders) :
    h.frame.circuit ∈ t.circuits := by
  rcases List.mem_append.mp hmem with hrest | hopen
  · exact List.mem_append_left _ (Control.mem_circuits_of_mem_resting hrest)
  · exact List.mem_append_right _ (List.mem_flatMap.mpr ⟨h, hopen, List.mem_cons_self⟩)

/-- A section brings no new circuit. -/
theorem Section.circuits_subset {t t' : Thread α} {e e' : Engine} (h : Section t e t' e') :
    t'.circuits ⊆ t.circuits := by
  intro c hc
  cases h with
  | callOpen | callFull | callTaken | rescueFull | rescueTaken | wake | again | rest | closePrimary | closeFallback =>
    simp only [circuits, Control.circuits, Suspended.circuits, Holder.circuits, Stage.circuits, List.flatMap_cons,
      List.flatMap_nil, List.mem_append, List.mem_cons] at hc ⊢
    tauto
  | shed _ _ _ _ _ _ hshed =>
    exact (List.mem_append.mp hc).elim
      (fun h => List.mem_append_left _ (Suspended.circuits_of_shed? hshed h)) (List.mem_append_right _)
  | gone | keep => exact List.mem_append_right _ hc
  | nest | nestOr | fallBack =>
    simpa only [circuits, Control.circuits, Work.circuits, Option.toList_none, Option.toList_some, List.flatMap_nil,
      List.flatMap_cons, List.append_nil] using hc
  | pass q => cases q <;> exact hc
  | _ => exact hc

end Thread
end CallGuard
