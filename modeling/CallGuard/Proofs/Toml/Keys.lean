import Mathlib.Data.List.Nodup
import CallGuard.Toml.Document

/-!
# No key stands twice

A tree is `Keyed` if no key stands twice in any table of it, however deep in tables and arrays. Tables under construction
have the same property, and every statement of a document keeps it: an entry is only written over one of the same key, or
put at the end if there is none (`Entries.Keyed.put`), wherever in the tree that happens (`Entries.Keyed.updateAt`).

**Main statement.** The tree of a document is keyed (`Value.keyed_ofDocument?`).
-/

namespace CallGuard.Toml

/-! ## Keyed trees -/

/-- No key stands twice in a table of the tree. -/
inductive Value.Keyed : Value → Prop
  | text (s : String) : Keyed (.text s)
  | integer (n : Int) : Keyed (.integer n)
  | real (x : RealNumber) : Keyed (.real x)
  | boolean (b : Bool) : Keyed (.boolean b)
  | moment (m : Moment) : Keyed (.moment m)
  | array {items : List Value} : (∀ v ∈ items, Keyed v) → Keyed (.array items)
  | table {entries : List (String × Value)} : (entries.map Prod.fst).Nodup → (∀ e ∈ entries, Keyed e.2) →
      Keyed (.table entries)

/-- No key stands twice in a table of the tree under construction. -/
inductive Node.Keyed : Node → Prop
  | value {v : Value} : v.Keyed → Keyed (.value v)
  | table {growth : Growth} {es : Entries} : (es.map Prod.fst).Nodup → (∀ e ∈ es, Keyed e.2) → Keyed (.table growth es)
  | tables {items : List Entries} : (∀ es ∈ items, (es.map Prod.fst).Nodup) → (∀ es ∈ items, ∀ e ∈ es, Keyed e.2) →
      Keyed (.tables items)

/-- No key stands twice in the table or in a table inside it. -/
def Entries.Keyed (es : Entries) : Prop := (es.map Prod.fst).Nodup ∧ ∀ e ∈ es, e.2.Keyed

section Complete

theorem entriesToValues_eq_map (es : Entries) : entriesToValues es = es.map fun e => (e.1, e.2.toValue) := by
  induction es with
  | nil => rfl
  | cons e es ih => exact congrArg ((e.1, e.2.toValue) :: ·) ih

theorem itemsToValues_eq_map (items : List Entries) :
    itemsToValues items = items.map fun es => .table (entriesToValues es) := by
  induction items with
  | nil => rfl
  | cons es items ih => exact congrArg (Value.table (entriesToValues es) :: ·) ih

/-- The table of keyed entries, if the values in them are keyed. -/
theorem Value.keyed_entriesToValues {es : Entries} (distinct : (es.map Prod.fst).Nodup)
    (h : ∀ e ∈ es, e.2.toValue.Keyed) : (Value.table (entriesToValues es)).Keyed := by
  rw [entriesToValues_eq_map]
  refine .table ?_ fun e he => ?_
  · simpa [Function.comp_def] using distinct
  · obtain ⟨e', he', rfl⟩ := List.mem_map.mp he
    exact h e' he'

/-- A keyed tree stays so when it grows no more. -/
theorem Node.Keyed.toValue {n : Node} (h : n.Keyed) : n.toValue.Keyed := by
  induction h with
  | value hv => exact hv
  | table distinct _ ih => exact Value.keyed_entriesToValues distinct ih
  | tables distinct _ ih =>
    rw [Node.toValue, itemsToValues_eq_map]
    refine .array fun v hv => ?_
    obtain ⟨es, hes, rfl⟩ := List.mem_map.mp hv
    exact Value.keyed_entriesToValues (distinct es hes) (ih es hes)

end Complete

/-! ## Building -/

namespace Entries

variable {es es' : Entries} {key : String} {n : Node} {made growth : Growth} {passable : Growth → Bool}
  {way : List String} {f : Growth → Entries → Option Entries}

theorem keyed_nil : Keyed [] := ⟨List.nodup_nil, fun _ h => absurd h List.not_mem_nil⟩

/-- **One entry** is written over another of its key, or put at the end. -/
theorem Keyed.put (h : es.Keyed) (hn : n.Keyed) : (es.put key n).Keyed := by
  unfold Entries.put
  split
  · have hkeys : (es.map fun e => if e.1 == key then (key, n) else e).map Prod.fst = es.map Prod.fst := by
      rw [List.map_map]
      refine List.map_congr_left fun e _ => ?_
      by_cases he : e.1 = key <;> simp [he]
    refine ⟨hkeys ▸ h.1, fun e he => ?_⟩
    obtain ⟨e', he', rfl⟩ := List.mem_map.mp he
    split
    · exact hn
    · exact h.2 e' he'
  · rename_i hfresh
    have hnew : ∀ e ∈ es, e.1 ≠ key := fun e he heq => hfresh (List.any_eq_true.mpr ⟨e, he, beq_iff_eq.mpr heq⟩)
    constructor
    · rw [List.map_append, List.nodup_append]
      refine ⟨h.1, List.nodup_singleton key, ?_⟩
      simpa using fun key' n' hmem => hnew (key', n') hmem
    · intro e he
      rcases List.mem_append.mp he with he | he
      · exact h.2 e he
      · cases List.mem_singleton.mp he
        exact hn

theorem Keyed.lookup (h : es.Keyed) (hn : es.lookup key = some n) : n.Keyed := by
  obtain ⟨before, after, rfl, -⟩ := List.lookup_eq_some_iff.mp hn
  exact h.2 (key, n) (List.mem_append_right _ List.mem_cons_self)

/-- **A change at the end of a way** keeps a tree keyed, if it keeps the table there so. -/
theorem Keyed.updateAt (hf : ∀ growth es es', Keyed es → f growth es = some es' → Keyed es') (h : es.Keyed)
    (hu : updateAt made passable way f growth es = some es') : es'.Keyed := by
  induction way generalizing growth es es' with
  | nil => exact hf growth es es' h hu
  | cons key way ih =>
    rw [Entries.updateAt] at hu
    split at hu
    · obtain ⟨inner, hinner, hput⟩ := Option.bind_eq_some_iff.mp hu
      cases hput
      obtain ⟨hdistinct, hentries⟩ := ih keyed_nil hinner
      exact h.put (.table hdistinct hentries)
    · rename_i growth' inner hlookup
      split at hu
      · obtain ⟨inner', hinner, hput⟩ := Option.bind_eq_some_iff.mp hu
        cases hput
        cases h.lookup hlookup with
        | table hdistinct hentries =>
          obtain ⟨hdistinct', hentries'⟩ := ih ⟨hdistinct, hentries⟩ hinner
          exact h.put (.table hdistinct' hentries')
      · cases hu
    · rename_i items hlookup
      obtain ⟨last, hlast, hu⟩ := Option.bind_eq_some_iff.mp hu
      obtain ⟨inner, hinner, hput⟩ := Option.bind_eq_some_iff.mp hu
      cases hput
      cases h.lookup hlookup with
      | tables hdistinct hentries =>
        have hmem := List.mem_of_getLast? hlast
        obtain ⟨hdistinct', hentries'⟩ := ih ⟨hdistinct last hmem, hentries last hmem⟩ hinner
        refine h.put (.tables ?_ ?_)
        · intro es hes
          rcases List.mem_append.mp hes with hes | hes
          · exact hdistinct es (List.dropLast_subset items hes)
          · cases List.mem_singleton.mp hes
            exact hdistinct'
        · intro es hes
          rcases List.mem_append.mp hes with hes | hes
          · exact hentries es (List.dropLast_subset items hes)
          · cases List.mem_singleton.mp hes
            exact hentries'
    · cases hu

theorem Keyed.assign {path : Path} {v : Value} (h : es.Keyed) (hv : v.Keyed)
    (ha : assign path v growth es = some es') : es'.Keyed := by
  refine h.updateAt (fun growth es es' h hes => ?_) ha
  split at hes
  · split at hes
    · cases hes
    · cases hes
      exact h.put (.value hv)
  · cases hes

theorem Keyed.updateUnder {g : Entries → Option Entries}
    (hg : ∀ es es', Keyed es → g es = some es' → Keyed es') (h : es.Keyed)
    (hu : updateUnder way g es = some es') : es'.Keyed :=
  h.updateAt (fun _ es es' h hes => hg es es' h hes) hu

theorem Keyed.define {path : Path} (h : es.Keyed) (hd : define path es = some es') : es'.Keyed := by
  refine h.updateUnder (fun es es' h hes => ?_) hd
  split at hes
  · cases hes
    exact h.put (.table List.nodup_nil fun _ he => absurd he List.not_mem_nil)
  · rename_i inner hlookup
    cases hes
    cases h.lookup hlookup with
    | table hdistinct hentries => exact h.put (.table hdistinct hentries)
  · cases hes

theorem Keyed.addTable {path : Path} (h : es.Keyed) (ha : addTable path es = some es') : es'.Keyed := by
  refine h.updateUnder (fun es es' h hes => ?_) ha
  have hnew : ∀ es ∈ [([] : Entries)], (es.map Prod.fst).Nodup ∧ ∀ e ∈ es, e.2.Keyed := by
    intro es hes
    cases List.mem_singleton.mp hes
    exact keyed_nil
  split at hes
  · cases hes
    exact h.put (.tables (fun es hes => (hnew es hes).1) fun es hes => (hnew es hes).2)
  · rename_i items hlookup
    cases hes
    cases h.lookup hlookup with
    | tables hdistinct hentries =>
      refine h.put (.tables ?_ ?_)
      · exact fun es hes => (List.mem_append.mp hes).elim (hdistinct es) fun hes => (hnew es hes).1
      · exact fun es hes => (List.mem_append.mp hes).elim (hentries es) fun hes => (hnew es hes).2
  · cases hes

end Entries

/-- What every step keeps is kept by a row of steps. -/
theorem keeps_foldlM {σ ι : Type} {step : σ → ι → Option σ} {I : σ → Prop} {l : List ι} {s s' : σ}
    (hstep : ∀ i ∈ l, ∀ s s', I s → step s i = some s' → I s') (h : I s) (hl : l.foldlM step s = some s') : I s' := by
  induction l generalizing s with
  | nil =>
    cases hl
    exact h
  | cons i l ih =>
    rw [List.forall_mem_cons] at hstep
    rw [List.foldlM_cons] at hl
    obtain ⟨s₁, hs₁, hl⟩ := Option.bind_eq_some_iff.mp hl
    exact ih hstep.2 (hstep.1 s s₁ h hs₁) hl

theorem Value.keyed_of_ofAssignments? {pairs : List (Path × Value)} {v : Value} (h : ∀ p ∈ pairs, p.2.Keyed)
    (hv : Value.ofAssignments? pairs = some v) : v.Keyed := by
  obtain ⟨es, hes, htable⟩ := Option.bind_eq_some_iff.mp hv
  cases htable
  obtain ⟨hdistinct, hentries⟩ : Entries.Keyed es :=
    keeps_foldlM (fun p hp es es' hkeyed ha => hkeyed.assign (h p hp) ha) Entries.keyed_nil hes
  exact keyed_entriesToValues hdistinct fun e he => (hentries e he).toValue

/-! ## Reading -/

/-- What a scanner reads has a property. -/
def Scan.Yields {β : Type} (p : Scan β) (P : β → Prop) : Prop := ∀ s a rest, p s = some (a, rest) → P a

namespace Scan.Yields

variable {β γ : Type} {P : β → Prop} {Q : γ → Prop} {p q : Scan β}

theorem orElse (hp : p.Yields P) (hq : q.Yields P) : Scan.Yields (fun s => p s <|> q s) P := by
  intro s a rest h
  cases hps : p s with
  | none => exact hq s a rest (by simpa [hps] using h)
  | some r =>
    have hr : r = (a, rest) := by simpa [hps] using h
    exact hp s a rest (hr ▸ hps)

theorem map {f : β → γ} (hp : p.Yields fun b => Q (f b)) : Scan.Yields (fun s => (p s).map fun r => (f r.1, r.2)) Q := by
  intro s a rest h
  obtain ⟨⟨b, rest'⟩, hb, hab⟩ := Option.map_eq_some_iff.mp h
  cases hab
  exact hp s b rest' hb

theorem of_forall (h : ∀ b, P b) : p.Yields P := fun _ b _ _ => h b

theorem many (hp : p.Yields P) (s : List Char) : ∀ b ∈ (many p s).1, P b := by
  have hbound : ∀ bound s, ∀ b ∈ (manyUpTo p bound s).1, P b := by
    intro bound
    induction bound with
    | nil => exact fun _ _ h => absurd h List.not_mem_nil
    | cons c bound ih =>
      intro s b hb
      rw [manyUpTo] at hb
      split at hb
      · exact absurd hb List.not_mem_nil
      · rename_i a rest ha
        rcases List.mem_cons.mp hb with rfl | hb
        · exact hp s b rest ha
        · exact ih rest b hb
  exact hbound s s

theorem commaList (hp : p.Yields P) : (commaList p).Yields fun items => ∀ b ∈ items, P b := by
  intro s items rest h
  obtain ⟨⟨first, s₁⟩, hfirst, h⟩ := Option.bind_eq_some_iff.mp h
  cases h
  have hmore : Scan.Yields (fun s => literal [','] s >>= fun r => p r.2) P := by
    intro s b rest h
    obtain ⟨r, -, hb⟩ := Option.bind_eq_some_iff.mp h
    exact hp _ b rest hb
  exact List.forall_mem_cons.mpr ⟨hp s first s₁ hfirst, hmore.many s₁⟩

end Scan.Yields

/-! ### Values -/

theorem keyed_of_fitting {negative : Bool} {n : Nat} {v : Value} (h : fitting negative n = some v) : v.Keyed := by
  unfold fitting at h
  split at h <;> split at h <;> cases h <;> exact .integer _

theorem yields_basedInteger (base : Nat) (isDigit : Char → Bool) : (basedInteger base isDigit).Yields Value.Keyed := by
  intro s v rest h
  obtain ⟨⟨ds, s₁⟩, -, h⟩ := Option.bind_eq_some_iff.mp h
  obtain ⟨v, hv, h⟩ := Option.bind_eq_some_iff.mp h
  cases h
  exact keyed_of_fitting hv

theorem yields_integer : integer.Yields Value.Keyed := by
  intro s v rest h
  unfold integer at h
  split at h
  · exact yields_basedInteger _ _ _ v rest h
  · exact yields_basedInteger _ _ _ v rest h
  · exact yields_basedInteger _ _ _ v rest h
  · obtain ⟨⟨ds, s₁⟩, -, h⟩ := Option.bind_eq_some_iff.mp h
    obtain ⟨v, hv, h⟩ := Option.bind_eq_some_iff.mp h
    cases h
    exact keyed_of_fitting hv

theorem yields_finiteReal : finiteReal.Yields Value.Keyed := by
  intro s v rest h
  simp only [finiteReal, Option.bind_eq_bind, Option.bind_eq_some_iff] at h
  obtain ⟨⟨whole, s₁⟩, -, ⟨⟨ds, e⟩, s₂⟩, -, h⟩ := h
  split at h
  · cases h
  · cases h
    exact .real _

theorem yields_wordReal : wordReal.Yields Value.Keyed := by
  intro s v rest h
  simp only [wordReal] at h
  split at h <;> cases h <;> exact .real _

theorem yields_scalar : scalar.Yields Value.Keyed := by
  have htrue : Scan.Yields (literal "true".toList) fun _ => (Value.boolean true).Keyed := .of_forall fun _ => .boolean true
  have hfalse : Scan.Yields (literal "false".toList) fun _ => (Value.boolean false).Keyed :=
    .of_forall fun _ => .boolean false
  exact .orElse (.map (.of_forall .text)) <| .orElse (.map (.of_forall .moment)) <|
    .orElse (yields_finiteReal.orElse (yields_wordReal.orElse yields_integer)) <|
      .orElse (.map (f := fun _ => Value.boolean true) htrue) (.map (f := fun _ => Value.boolean false) hfalse)

variable {value : Scan Value}

theorem yields_arrayRest (hvalue : value.Yields Value.Keyed) : (arrayRest value).Yields Value.Keyed := by
  intro s v rest h
  have helement : Scan.Yields (fun s => (value (dropLayout s)).map fun r => (r.1, dropLayout r.2)) Value.Keyed := by
    intro s v rest h
    obtain ⟨⟨w, r⟩, hw, hv⟩ := Option.map_eq_some_iff.mp h
    cases hv
    exact hvalue _ w r hw
  simp only [arrayRest, Option.bind_eq_bind, Option.bind_eq_some_iff] at h
  obtain ⟨r, -, h⟩ := h
  cases h
  split
  · rename_i items s₁ hitems
    exact .array (helement.commaList s items s₁ hitems)
  · exact .array fun _ hv => absurd hv List.not_mem_nil

theorem yields_assignment (hvalue : value.Yields Value.Keyed) : (assignment value).Yields fun e => e.2.Keyed := by
  intro s e rest h
  obtain ⟨⟨k, s₁⟩, -, h⟩ := Option.bind_eq_some_iff.mp h
  obtain ⟨r, -, h⟩ := Option.bind_eq_some_iff.mp h
  obtain ⟨⟨v, s₂⟩, hv, h⟩ := Option.bind_eq_some_iff.mp h
  cases h
  exact hvalue _ v rest hv

theorem yields_tableRest (hvalue : value.Yields Value.Keyed) : (tableRest value).Yields Value.Keyed := by
  intro s v rest h
  have hentry : Scan.Yields (fun s => (assignment value s).map fun r => (r.1, dropBlanks r.2)) fun e => e.2.Keyed := by
    intro s e rest h
    obtain ⟨⟨e', r⟩, he, hr⟩ := Option.map_eq_some_iff.mp h
    cases hr
    exact yields_assignment hvalue _ e' r he
  simp only [tableRest, Option.bind_eq_bind, Option.bind_eq_some_iff] at h
  obtain ⟨r, -, v, hv, h⟩ := h
  cases h
  refine Value.keyed_of_ofAssignments? ?_ hv
  cases hpairs : commaList (fun s => (assignment value s).map fun r => (r.1, dropBlanks r.2)) s with
  | none => exact fun _ hp => absurd hp List.not_mem_nil
  | some pairs => exact hentry.commaList s pairs.1 pairs.2 hpairs

theorem yields_value (depth : Nat) : (Toml.value depth).Yields Value.Keyed := by
  induction depth with
  | zero => exact yields_scalar
  | succ depth ih =>
    intro s v rest h
    simp only [Toml.value] at h
    split at h
    · exact yields_arrayRest ih _ v rest h
    · exact yields_tableRest ih _ v rest h
    · exact yields_scalar _ v rest h

/-! ### Statements -/

/-- The value that a statement assigns has no key twice. -/
def Statement.Keyed : Statement → Prop
  | .assign _ v => v.Keyed
  | .header _ | .tableHeader _ => True

theorem yields_statement : statement.Yields Statement.Keyed := by
  intro s st rest h
  simp only [statement] at h
  split at h
  · obtain ⟨r, -, hr⟩ := Option.map_eq_some_iff.mp h
    cases hr
    trivial
  · obtain ⟨r, -, hr⟩ := Option.map_eq_some_iff.mp h
    cases hr
    trivial
  · obtain ⟨⟨e, r⟩, he, hr⟩ := Option.map_eq_some_iff.mp h
    cases hr
    exact yields_assignment (yields_value _) _ e r he

theorem yields_line : line.Yields fun st => ∀ st' ∈ st, st'.Keyed := by
  intro s st rest h
  simp only [line] at h
  have hblank : ∀ s, (restOfLine s).map (fun r => ((none : Option Statement), r.2)) = some (st, rest) →
      ∀ st' ∈ st, st'.Keyed := by
    intro s h
    obtain ⟨r, -, hr⟩ := Option.map_eq_some_iff.mp h
    cases hr
    exact fun _ hst => by cases hst
  split at h
  · exact hblank _ h
  · exact hblank _ h
  · exact hblank _ h
  · obtain ⟨⟨st₁, s₁⟩, hst₁, h⟩ := Option.bind_eq_some_iff.mp h
    obtain ⟨r, -, h⟩ := Option.bind_eq_some_iff.mp h
    cases h
    rintro st' ⟨⟩
    exact yields_statement _ st₁ s₁ hst₁

theorem keyed_of_statements? {s : List Char} {sts : List Statement} (h : statements? s = some sts) :
    ∀ st ∈ sts, st.Keyed := by
  have hlines : ∀ s : List Char, ∀ st ∈ (many line s).1.filterMap id, st.Keyed := by
    intro s st hst
    obtain ⟨found, hfound, hst⟩ := List.mem_filterMap.mp hst
    exact yields_line.many s found hfound st hst
  simp only [statements?] at h
  split at h <;> split at h <;> cases h <;> exact hlines _

/-! ## Documents -/

theorem Builder.keyed_step {b b' : Builder} {st : Statement} (h : b.root.Keyed) (hst : st.Keyed)
    (hs : b.step st = some b') : b'.root.Keyed := by
  cases st with
  | assign path v =>
    obtain ⟨root, hroot, hb⟩ := Option.bind_eq_some_iff.mp hs
    cases hb
    exact h.updateUnder (fun es es' h hes => h.assign hst hes) hroot
  | header path =>
    obtain ⟨root, hroot, hb⟩ := Option.bind_eq_some_iff.mp hs
    cases hb
    exact h.define hroot
  | tableHeader path =>
    obtain ⟨root, hroot, hb⟩ := Option.bind_eq_some_iff.mp hs
    cases hb
    exact h.addTable hroot

/-- **No key stands twice in a table of a document.** -/
theorem Value.keyed_ofDocument? {text : String} {v : Value} (h : Value.ofDocument? text = some v) : v.Keyed := by
  obtain ⟨sts, hsts, h⟩ := Option.bind_eq_some_iff.mp h
  obtain ⟨b, hb, hv⟩ := Option.bind_eq_some_iff.mp h
  cases hv
  obtain ⟨hdistinct, hentries⟩ : Entries.Keyed b.root :=
    keeps_foldlM (I := fun b : Builder => b.root.Keyed)
      (fun st hst b b' hkeyed hs => Builder.keyed_step hkeyed (keyed_of_statements? hsts st hst) hs)
      Entries.keyed_nil hb
  exact keyed_entriesToValues hdistinct fun e he => (hentries e he).toValue

end CallGuard.Toml
