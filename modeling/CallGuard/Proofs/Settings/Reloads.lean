import CallGuard.Settings.Reload
import CallGuard.Proofs.Registry.Validity
import CallGuard.Proofs.Settings.Documents

/-!
# What a watched file hands on

Of all that happens in the directory of a watched file only the written contents that load count
(`FileEvent.settings?`). What is handed on are the changes among them (`Settings.changes`): those that say something
else than the ones directly before them.

* **Loading** (`Settings.exists_load_iff`): a document loads exactly if its known values are sound and the settings that
  it gives have no problem; then it loads as settings that it gives (`Settings.givenBy_of_load`).
* **Comparison** (`Reload.Knows`): what a reload remembers says the same as the last settings that loaded, though it
  may list its overrides in another order, and is kept in step with them by every event (`Reload.Knows.step`).
* **Repetition** (`Reload.Current`): what a reload remembers also says the same as the contents on disk if these load,
  so an event that leaves the contents as they are hands nothing on (`Reload.Current.step_eq`).

**Main statement** (`Reload.run_faithful`): whatever the initial contents and the events, the changes are handed on,
every registry accepts them, and in the end it has the last settings that loaded, or its own if there was no change.
-/

namespace CallGuard

/-! ## Changes -/

namespace Settings

theorem Same.refl (s : Settings) : s.Same s := Eq.refl _

theorem Same.symm {s t : Settings} (h : s.Same t) : t.Same s := Eq.symm h

theorem Same.trans {s t u : Settings} (h : s.Same t) (h' : t.Same u) : s.Same u := Eq.trans h h'

/-- The settings of a list that say something else than the ones before them; the first are compared with those of
`before`, if there are any. -/
def changes : (before : Option Settings) → List Settings → List Settings
  | _, [] => []
  | before, s :: l => if ∃ t ∈ before, t.Same s then changes (some s) l else s :: changes (some s) l

variable {before : Option Settings} {s : Settings} {l : List Settings}

theorem changes_cons_of_same (h : ∃ t ∈ before, t.Same s) : changes before (s :: l) = changes (some s) l := by
  rw [changes, if_pos h]

theorem changes_cons_of_not_same (h : ¬ ∃ t ∈ before, t.Same s) :
    changes before (s :: l) = s :: changes (some s) l := by
  rw [changes, if_neg h]

theorem changes_sublist (before : Option Settings) (l : List Settings) : (changes before l).Sublist l := by
  induction l generalizing before with
  | nil => exact List.Sublist.slnil
  | cons s l ih =>
    by_cases h : ∃ t ∈ before, t.Same s
    · rw [changes_cons_of_same h]
      exact (ih _).cons s
    · rw [changes_cons_of_not_same h]
      exact (ih _).cons_cons s

/-- Without a change all say the same. -/
theorem same_of_changes_eq_nil (h : changes (some s) l = []) : ∀ t ∈ l, s.Same t := by
  induction l generalizing s with
  | nil => exact fun _ => nofun
  | cons u l ih =>
    by_cases hsame : s.Same u
    · rw [changes_cons_of_same ⟨s, rfl, hsame⟩] at h
      intro t ht
      rcases List.mem_cons.mp ht with rfl | ht
      · exact hsame
      · exact hsame.trans (ih h t ht)
    · rw [changes_cons_of_not_same (by simpa using hsame)] at h
      cases h

/-- The last change says the same as the last settings. -/
theorem getLast?_changes (h : (changes before l).getLast? = some s) : ∃ t, l.getLast? = some t ∧ s.Same t := by
  induction l generalizing before with
  | nil => cases h
  | cons u l ih =>
    -- the last change is a later one, or else all later settings say the same as `u`
    cases hlater : (changes (some u) l).getLast? with
    | some w =>
      have hw : w = s := by
        by_cases hsame : ∃ t ∈ before, t.Same u
        · rw [changes_cons_of_same hsame, hlater] at h
          exact Option.some.inj h
        · rw [changes_cons_of_not_same hsame, List.getLast?_cons, hlater] at h
          exact Option.some.inj h
      obtain ⟨t, ht, hst⟩ := ih (hw ▸ hlater)
      exact ⟨t, by rw [List.getLast?_cons, ht]; rfl, hst⟩
    | none =>
      have hall := same_of_changes_eq_nil (List.getLast?_eq_none_iff.mp hlater)
      have hs : u = s := by
        by_cases hsame : ∃ t ∈ before, t.Same u
        · rw [changes_cons_of_same hsame, hlater] at h
          cases h
        · rw [changes_cons_of_not_same hsame, List.getLast?_cons, hlater] at h
          exact Option.some.inj h
      subst hs
      refine ⟨l.getLast?.getD u, List.getLast?_cons, ?_⟩
      cases hlast : l.getLast? with
      | none => exact Same.refl u
      | some t => exact hall t (List.mem_of_getLast? hlast)

/-! ## Contents that load -/

/-- The tree of the contents of a file, if they are a text and that is a document. -/
def tree? (contents : Option ByteArray) : Option Toml.Value :=
  (contents.bind String.fromUTF8?).bind Toml.Value.ofDocument?

variable {contents : Option ByteArray} {v : Toml.Value}

/-- Contents load if they have a tree that is accepted. -/
theorem load_eq_ok_iff : load contents = .ok s ↔ ∃ v, tree? contents = some v ∧ ofValue v = .ok s := by
  cases contents with
  | none => simp [load, tree?]
  | some bytes =>
    cases htext : String.fromUTF8? bytes with
    | none => simp [load, tree?, htext]
    | some text => cases hv : Toml.Value.ofDocument? text <;> simp [load, tree?, htext, read, hv]

theorem valid_of_load (h : load contents = .ok s) : s.Valid := by
  obtain ⟨v, -, hv⟩ := load_eq_ok_iff.mp h
  exact valid_of_ofValue hv

/-- In the tree of a document no key stands twice. -/
theorem tidy_of_tree? (htree : tree? contents = some v) (plain : Schema.settings.Plain v) :
    Schema.settings.Tidy v := by
  obtain ⟨text, -, hv⟩ := Option.bind_eq_some_iff.mp htree
  exact plain.tidy (Toml.Value.keyed_ofDocument? hv)

/-- What loads is what the tree gives. -/
theorem givenBy_of_load (htree : tree? contents = some v) (plain : Schema.settings.Plain v)
    (h : load contents = .ok s) : Schema.settings.Sound v ∧ s.GivenBy v := by
  obtain ⟨v', htree', hv⟩ := load_eq_ok_iff.mp h
  obtain rfl := Option.some.inj (htree.symm.trans htree')
  cases hs : decode v with
  | none =>
    rw [ofValue_of_not_decode hs] at hv
    cases hv
  | some t =>
    obtain ⟨rfl, -⟩ := eq_of_check ((ofValue_of_decode hs).symm.trans hv)
    exact decodedBy.given (tidy_of_tree? htree plain) hs

/-- **Which contents load.** A document loads exactly if every known value in it, at any depth, is sound, and the
settings that it gives have no problem. -/
theorem exists_load_iff (htree : tree? contents = some v) (plain : Schema.settings.Plain v) :
    (∃ s, load contents = .ok s) ↔ Schema.settings.Sound v ∧ ∀ s : Settings, s.GivenBy v → s.Valid := by
  constructor
  · rintro ⟨s, hs⟩
    obtain ⟨hsound, hgiven⟩ := givenBy_of_load htree plain hs
    refine ⟨hsound, fun t ht => ?_⟩
    have hsame : s.Same t := determined v v s t (fun _ _ _ => rfl) hsound hgiven ht
    exact hsame.problems_eq.symm.trans (valid_of_load hs)
  · rintro ⟨hsound, hvalid⟩
    have tidy := tidy_of_tree? htree plain
    obtain ⟨s, hs⟩ := decodedBy.exists_decode tidy hsound
    have hcheck : ofValue v = .ok s :=
      (ofValue_of_decode hs).trans (check_of_valid (hvalid s (decodedBy.given tidy hs).2))
    exact ⟨s, load_eq_ok_iff.mpr ⟨v, htree, hcheck⟩⟩

end Settings

/-! ## Events -/

/-- The settings that an event for the watched file brings, if its contents load. -/
def FileEvent.settings? : FileEvent → Option Settings
  | .written contents => (Settings.load (some contents)).toOption
  | .otherWritten | .removed => none

/-- Written contents bring what they load as. -/
theorem FileEvent.settings?_written {contents : ByteArray} {s : Settings} :
    (written contents).settings? = some s ↔ Settings.load (some contents) = .ok s := by
  rw [settings?]
  cases Settings.load (some contents) <;> simp [Except.toOption]

/-- Settings come from written contents that load. -/
theorem FileEvent.eq_written {event : FileEvent} {s : Settings} (h : event.settings? = some s) :
    ∃ contents, event = .written contents ∧ Settings.load (some contents) = .ok s := by
  cases event with
  | written contents => exact ⟨contents, rfl, settings?_written.mp h⟩
  | otherWritten | removed => cases h

/-- What the watched file holds after an event, if it exists. -/
def FileEvent.contents (before : Option ByteArray) : FileEvent → Option ByteArray
  | .written contents => some contents
  | .otherWritten => before
  | .removed => none

/-- The settings of all written contents that load, in their order. -/
def FileEvent.loaded (events : List FileEvent) : List Settings := events.filterMap settings?

/-- The second list has the events of the first one, and between them any events that leave the contents of the file as
they are. -/
inductive FileEvent.Repeated : Option ByteArray → List FileEvent → List FileEvent → Prop
  | nil {contents : Option ByteArray} : Repeated contents [] []
  | next {contents : Option ByteArray} (event : FileEvent) {events events' : List FileEvent}
    (rest : Repeated (event.contents contents) events events') :
    Repeated contents (event :: events) (event :: events')
  | again {contents : Option ByteArray} {event : FileEvent} {events events' : List FileEvent}
    (same : event.contents contents = contents) (rest : Repeated contents events events') :
    Repeated contents events (event :: events')

namespace Reload

variable {r : Reload} {before : Option Settings} {s : Settings} {contents : Option ByteArray} {event : FileEvent}
  {events events' : List FileEvent}

/-! ## One event -/

/-- An event that brings no settings hands nothing on and leaves what is remembered. -/
theorem step_of_none (h : event.settings? = none) : (r.step event).2 = r ∧ forwarded [(r.step event).1] = [] := by
  cases event with
  | written contents =>
    rw [FileEvent.settings?] at h
    rw [step]
    cases hload : Settings.load (some contents) with
    | error err => exact ⟨rfl, rfl⟩
    | ok s =>
      rw [hload] at h
      cases h
  | otherWritten | removed => exact ⟨rfl, rfl⟩

/-- Of settings that it brings, those that are remembered are not handed on, and all others are. -/
theorem step_of_some (h : event.settings? = some s) :
    r.step event = if r.isLast s then (.unchanged, r) else (.reloaded s, ⟨some s⟩) := by
  obtain ⟨contents, rfl, hload⟩ := FileEvent.eq_written h
  rw [step, hload]

theorem step_of_last (h : event.settings? = some s) (hlast : r.isLast s = true) :
    (r.step event).2 = r ∧ forwarded [(r.step event).1] = [] := by
  rw [step_of_some h, if_pos hlast]
  exact ⟨rfl, rfl⟩

theorem step_of_new (h : event.settings? = some s) (hlast : ¬ r.isLast s = true) :
    (r.step event).2 = ⟨some s⟩ ∧ forwarded [(r.step event).1] = [s] := by
  rw [step_of_some h, if_neg hlast]
  exact ⟨rfl, rfl⟩

theorem forwarded_run_cons (r : Reload) (event : FileEvent) (events : List FileEvent) :
    forwarded (r.run (event :: events)) =
      forwarded [(r.step event).1] ++ forwarded ((r.step event).2.run events) := by
  rw [run, forwarded, forwarded, forwarded, ← List.filterMap_append, List.singleton_append]

/-! ## The last settings that loaded -/

/-- What is remembered says the same as the settings of `before`, if there are any. -/
def Knows (r : Reload) (before : Option Settings) : Prop := ∀ s, r.isLast s = true ↔ ∃ t ∈ before, t.Same s

theorem knows_last (r : Reload) : r.Knows r.last := by
  intro s
  simp [isLast, Option.any_eq_true]

/-- Settings that are the last ones may take their place. -/
theorem Knows.of_isLast (h : r.Knows before) (hlast : r.isLast s = true) : r.Knows (some s) := by
  obtain ⟨t, rfl, hts⟩ := (h s).mp hlast
  intro u
  simp only [h u, Option.mem_some_iff, exists_eq_left']
  exact ⟨hts.symm.trans, hts.trans⟩

/-- **Handing on**: the changes among the settings that load, and nothing else. -/
theorem Knows.forwarded_run (h : r.Knows before) (events : List FileEvent) :
    forwarded (r.run events) = Settings.changes before (FileEvent.loaded events) := by
  induction events generalizing r before with
  | nil => rfl
  | cons event events ih =>
    rw [forwarded_run_cons, FileEvent.loaded, List.filterMap_cons]
    cases hs : event.settings? with
    | none =>
      obtain ⟨hr, hnothing⟩ := step_of_none (r := r) hs
      rw [hr, hnothing]
      exact ih h
    | some s =>
      by_cases hlast : r.isLast s = true
      · obtain ⟨hr, hnothing⟩ := step_of_last hs hlast
        rw [hr, hnothing, Settings.changes_cons_of_same ((h s).mp hlast)]
        exact ih (h.of_isLast hlast)
      · obtain ⟨hr, hnew⟩ := step_of_new hs hlast
        rw [hr, hnew, Settings.changes_cons_of_not_same (fun hsame => hlast ((h s).mpr hsame))]
        exact congrArg (s :: ·) (ih (knows_last ⟨some s⟩))

/-! ## The contents on disk -/

/-- If the contents load, then what is remembered says the same. -/
def Current (r : Reload) (contents : Option ByteArray) : Prop :=
  ∀ s, Settings.load contents = .ok s → r.isLast s = true

theorem isLast_self (s : Settings) : isLast ⟨some s⟩ s = true := (knows_last ⟨some s⟩ s).mpr ⟨s, rfl, .refl s⟩

theorem current_start (contents : Option ByteArray) : (start contents).Current contents := by
  intro s hs
  rw [start, hs]
  exact isLast_self s

theorem Current.step (h : r.Current contents) (event : FileEvent) :
    (r.step event).2.Current (event.contents contents) := by
  cases event with
  | written bytes =>
    intro s hs
    have hsettings := FileEvent.settings?_written.mpr hs
    by_cases hlast : r.isLast s = true
    · rwa [(step_of_last hsettings hlast).1]
    · rw [(step_of_new hsettings hlast).1]
      exact isLast_self s
  | otherWritten => exact h
  | removed => exact fun s hs => nomatch hs

/-- **Repetition**: an event that leaves the contents as they are hands nothing on and leaves what is remembered. -/
theorem Current.step_eq (h : r.Current contents) (same : event.contents contents = contents) :
    (r.step event).2 = r ∧ forwarded [(r.step event).1] = [] := by
  cases hs : event.settings? with
  | none => exact step_of_none hs
  | some s =>
    obtain ⟨bytes, rfl, hload⟩ := FileEvent.eq_written hs
    have hcontents : contents = some bytes := same.symm
    exact step_of_last hs (h s (by rw [hcontents, hload]))

/-- Repeated events change nothing of what is handed on. -/
theorem Current.forwarded_run_repeated (h : r.Current contents) (hrep : FileEvent.Repeated contents events events') :
    forwarded (r.run events') = forwarded (r.run events) := by
  induction hrep generalizing r with
  | nil => rfl
  | next event _ ih => rw [forwarded_run_cons, forwarded_run_cons, ih (h.step event)]
  | again same _ ih =>
    obtain ⟨hr, hnothing⟩ := h.step_eq same
    rw [forwarded_run_cons, hr, hnothing, List.nil_append, ih h]

/-! ## The whole way -/

/-- What comes of a watched file that had the given contents at first. -/
structure Faithful (contents : Option ByteArray) (events : List FileEvent) : Prop where
  /-- A document that is written loads exactly if every known value in it, at any depth, is sound and the settings that
  it gives have no problem; and these are the settings that it loads as. -/
  loads : ∀ bytes v, .written bytes ∈ events → Settings.tree? (some bytes) = some v → Schema.settings.Plain v →
    ((∃ s, (FileEvent.written bytes).settings? = some s) ↔
      Schema.settings.Sound v ∧ ∀ s : Settings, s.GivenBy v → s.Valid) ∧
    ∀ s, (FileEvent.written bytes).settings? = some s → s.GivenBy v
  /-- The changes are handed on, from the initial settings on if these load, and nothing else. -/
  forwarded_eq : forwarded ((start contents).run events) =
    Settings.changes (Settings.load contents).toOption (FileEvent.loaded events)
  /-- Repeated events change nothing. -/
  repeated : ∀ events', FileEvent.Repeated contents events events' →
    forwarded ((start contents).run events') = forwarded ((start contents).run events)
  /-- Whatever the state of a registry, it accepts every element. -/
  accepted : ∀ s ∈ forwarded ((start contents).run events), ∀ r : Registry, ∃ r', r.apply s = .ok r' ∧ r'.settings = s
  /-- If nothing is handed on, a registry keeps its settings. -/
  kept : forwarded ((start contents).run events) = [] →
    ∀ r : Registry, (r.applyAll (forwarded ((start contents).run events))).settings = r.settings
  /-- Otherwise it ends with the last settings that loaded. -/
  replaced : forwarded ((start contents).run events) ≠ [] →
    ∃ s, (FileEvent.loaded events).getLast? = some s ∧
      ∀ r : Registry, (r.applyAll (forwarded ((start contents).run events))).settings.Same s

/-- **A watched file and a registry stay in step.** -/
theorem run_faithful (contents : Option ByteArray) (events : List FileEvent) : Faithful contents events := by
  have hchanges := (knows_last (start contents)).forwarded_run events
  have hvalid : ∀ s ∈ forwarded ((start contents).run events), s.Valid := by
    intro s hs
    rw [hchanges] at hs
    obtain ⟨event, -, hevent⟩ := List.mem_filterMap.mp ((Settings.changes_sublist _ _).mem hs)
    obtain ⟨bytes, -, hload⟩ := FileEvent.eq_written hevent
    exact Settings.valid_of_load hload
  have hfinal : ∀ r : Registry, (r.applyAll (forwarded ((start contents).run events))).settings =
      (forwarded ((start contents).run events)).getLast?.getD r.settings := by
    intro r
    refine (r.settings_foldl_applyOrNote _).trans ?_
    rw [Settings.lastValid, List.filter_eq_self.mpr fun s hs => decide_eq_true (hvalid s hs)]
  constructor
  case loads =>
    intro bytes v _ htree plain
    refine ⟨?_, fun s hs => (Settings.givenBy_of_load htree plain (FileEvent.settings?_written.mp hs)).2⟩
    rw [← Settings.exists_load_iff htree plain]
    exact exists_congr fun s => FileEvent.settings?_written
  case forwarded_eq => exact hchanges
  case repeated => exact fun events' hrep => (current_start contents).forwarded_run_repeated hrep
  case accepted => exact fun s hs r => ⟨_, Registry.apply_of_valid (hvalid s hs), rfl⟩
  case kept =>
    intro hnil r
    rw [hfinal, hnil]
    rfl
  case replaced =>
    intro hne
    obtain ⟨s, hs⟩ := List.getLast?_isSome.mpr hne |> Option.isSome_iff_exists.mp
    obtain ⟨t, ht, hst⟩ := Settings.getLast?_changes (hchanges ▸ hs)
    refine ⟨t, ht, fun r => ?_⟩
    rw [hfinal, hs]
    exact hst

/-! ### A file that is written again and again -/

namespace Rewritten

/-- Contents with a window of three buckets. -/
def first : ByteArray := "[rolling]\nnum_buckets = 3\n".toUTF8

/-- The same settings are written in another way, then a window without buckets; the file is removed; then it is written
with five buckets, becomes a part of a document, and has five buckets again. -/
def writes : List FileEvent :=
  [.written "rolling = \x7b num_buckets = 3 \x7d".toUTF8, .written "[rolling]\nnum_buckets = 0".toUTF8, .removed,
    .otherWritten, .written "[rolling]\nnum_buckets = 5".toUTF8, .written "[rolling".toUTF8,
    .written "[rolling]\nnum_buckets = 5\n".toUTF8]

/-- Settings with a window of five buckets. -/
def last : Settings := { window := { buckets := 5 } }

end Rewritten

/-- Five buckets are handed on once, and nothing else; every registry takes them, and has them in the end. -/
theorem run_faithful_rewritten :
    FileEvent.loaded Rewritten.writes = [{ window := { buckets := 3 } }, Rewritten.last, Rewritten.last] ∧
    forwarded ((start (some Rewritten.first)).run Rewritten.writes) = [Rewritten.last] ∧
    ∀ r : Registry, (∃ r', r.apply Rewritten.last = .ok r' ∧ r'.settings = Rewritten.last) ∧
      (r.applyAll (forwarded ((start (some Rewritten.first)).run Rewritten.writes))).settings.Same Rewritten.last := by
  have hloaded : FileEvent.loaded Rewritten.writes =
      [{ window := { buckets := 3 } }, Rewritten.last, Rewritten.last] := by decide +kernel
  have hfaithful := run_faithful (some Rewritten.first) Rewritten.writes
  have hforwarded : forwarded ((start (some Rewritten.first)).run Rewritten.writes) = [Rewritten.last] := by
    rw [hfaithful.forwarded_eq, hloaded]
    decide +kernel
  refine ⟨hloaded, hforwarded, fun r => ⟨?_, ?_⟩⟩
  · exact hfaithful.accepted _ (hforwarded ▸ List.mem_singleton_self _) r
  · obtain ⟨s, hlast, happlied⟩ := hfaithful.replaced (hforwarded ▸ List.cons_ne_nil _ _)
    rw [hloaded] at hlast
    obtain rfl := Option.some.inj hlast
    exact happlied r

end Reload
end CallGuard
