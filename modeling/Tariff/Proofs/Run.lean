import Mathlib.Data.List.Basic
import Tariff.Proofs.Change
import Tariff.Proofs.LookUp

/-!
# Runs of an engine

A **call** is whatever is asked of an engine: a change, a seed or a read. It
brings along what it finds outside, the clock and the fresh identifiers. `answer`
says what a call returns and what the engine is afterwards, and `run` carries out
one call after another, whether they succeed or fail.

Statements about runs are proved of smaller steps. A seed makes many changes, and
a price looks up several settings. `Path` therefore follows an engine from one
change or look-up to the next, and `exists_path_run` says that every run is such a
path, which draws no other identifiers and reads the clock no more often than the
calls of the run do. So an invariant has to be shown for eight kinds of step:
six changes, the clearing of the cache, and the look-up of one value.
-/

namespace Tariff

/-- **What is asked of an engine.** There is a constructor for each function of the engine that can
be called, reads included, since a read may fill the cache. What a call finds outside is among its
arguments: an occasion has the time and the identifiers for what is made on it. -/
inductive Call where
  | setSetting (key : String) (value : Value) (options : SettingOptions) (o : Occasion)
  | deleteSetting (id : Uuid) (author : Author) (o : Occasion)
  | createCategory (name : String) (description : Option String) (o : Occasion)
  | createRule (draft : Draft) (author : Author) (o : Occasion)
  | updateRule (id : Uuid) (draft : Draft) (author : Author) (o : Occasion)
  | deleteRule (id : Uuid) (author : Author) (o : Occasion)
  | seed (settings : Seed.Settings) (rules : Seed.Rules) (occasion : Nat → Occasion)
  | getSetting (key : String) (r : Request) (t : Instant)
  | getSettings (keys : List String) (r : Request) (t : Instant)
  | getCategorySettings (name : String) (r : Request) (t : Instant)
  | explain (key : String) (r : Request) (t : Instant)
  | getPrice (op : Operation) (r : Request) (t : Instant)
  | getQuote (op : Operation) (r : Request) (t : Instant)
  | getOrderPrice (op : Operation) (lines : List Order.Line) (r : Request) (t : Instant)
  | findSetting (id : Uuid)
  | listCategories
  | listRules
  | statistics (filter : Statistics.Filter) (t : Instant)
  | history (subject : Subject)

/-- **What a call returns.** The functions return different types. They are put into one, so that a
run can be a fold over a list of calls. -/
inductive Answer where
  | setting (s : Setting)
  | category (c : Category)
  | rule (r : Rule)
  | deleted
  | seeded (report : SeedReport)
  | value (v : Option Value)
  | values (vs : List (String × Value))
  | candidates (cs : List Candidate)
  | price (p : Decimal)
  | quote (q : Quote)
  | order (o : PricedOrder)
  | categories (cs : List Category)
  | rules (rs : List Rule)
  | statistics (s : Statistics)
  | records (rs : List AuditRecord)

namespace Call

/-- The number of entries that a seed goes through. Each has an occasion of its own. -/
def entryCount (settings : Seed.Settings) (rules : Seed.Rules) : Nat :=
  settings.categories.length + settings.settings.length + rules.rules.length

/-- **The fresh identifiers that a call may give to new rows.** A call may draw one and not use it,
as where it fails or changes what is there. Statements that need fresh identifiers ask it of all
that may be drawn. -/
def rowIds : Call → List Uuid
  | .setSetting _ _ _ o | .createCategory _ _ o | .createRule _ _ o => [o.rowId]
  | .seed settings rules occasion =>
    (List.range (entryCount settings rules)).map fun i => (occasion i).rowId
  | _ => []

/-- **The readings of the clock that a call makes.** -/
def readings : Call → List Instant
  | .setSetting _ _ _ o | .deleteSetting _ _ o | .createCategory _ _ o | .createRule _ _ o
  | .updateRule _ _ _ o | .deleteRule _ _ o => [o.now]
  | .seed settings rules occasion =>
    (List.range (entryCount settings rules)).map fun i => (occasion i).now
  | .getSetting _ _ t | .getSettings _ _ t | .getCategorySettings _ _ t | .explain _ _ t
  | .getPrice _ _ t | .getQuote _ _ t | .getOrderPrice _ _ _ t | .statistics _ t => [t]
  | .findSetting _ | .listCategories | .listRules | .history _ => []

end Call

namespace Engine

/-- The outcome of a change. One that is refused leaves the engine as it was: what it would have
become is not part of the result then. -/
def settle {α : Type} (e : Engine) (answer : α → Answer) (result : Except Error (α × Engine)) :
    Except Failure Answer × Engine :=
  match result with
  | .ok (a, e') => (.ok (answer a), e')
  | .error x => (.error (.error x), e)

/-- The outcome of a deletion. -/
def settleDeletion (e : Engine) (result : Except Error Engine) : Except Failure Answer × Engine :=
  match result with
  | .ok e' => (.ok .deleted, e')
  | .error x => (.error (.error x), e)

/-- **What an engine answers to a call**, and the engine afterwards. Only changes, and look-ups that
go through the cache, return another engine. All other reads leave it as it is. -/
def answer (e : Engine) : Call → Except Failure Answer × Engine
  | .setSetting key value options o => e.settle .setting (e.setSetting key value options o)
  | .deleteSetting id author o => e.settleDeletion (e.deleteSetting id author o)
  | .createCategory name description o => e.settle .category (e.createCategory name description o)
  | .createRule draft author o => e.settle .rule (e.createRule draft author o)
  | .updateRule id draft author o => e.settle .rule (e.updateRule id draft author o)
  | .deleteRule id author o => e.settleDeletion (e.deleteRule id author o)
  | .seed settings rules occasion =>
    let (result, e') := e.seed settings rules occasion
    ((result.map .seeded).mapError .error, e')
  | .getSetting key r t =>
    let (v, e') := e.getSetting key r t
    (.ok (.value v), e')
  | .getSettings keys r t => (.ok (.values ((e.view t).values keys r)), e)
  | .getCategorySettings name r t =>
    ((((e.view t).categoryValues name r).map .values).mapError .error, e)
  | .explain key r t => (.ok (.candidates ((e.view t).explain key r)), e)
  | .getPrice op r t =>
    let (result, e') := e.getPrice op r t
    (result.map .price, e')
  | .getQuote op r t =>
    let (result, e') := e.getQuote op r t
    (result.map .quote, e')
  | .getOrderPrice op lines r t =>
    let (result, e') := e.getOrderPrice op lines r t
    (result.map .order, e')
  | .findSetting id => (((e.findSetting id).map .setting).mapError .error, e)
  | .listCategories => (.ok (.categories e.store.allCategories), e)
  | .listRules => (.ok (.rules e.store.rulesInOrder), e)
  | .statistics filter t => (.ok (.statistics (e.statistics filter t)), e)
  | .history subject => (.ok (.records (e.history subject)), e)

/-- The engine after a call. -/
def perform (e : Engine) (c : Call) : Engine := (e.answer c).2

/-- **The engine after a run.** -/
def run (e : Engine) (calls : List Call) : Engine := calls.foldl perform e

/-! ## Steps and paths -/

/-- **One step of an engine**: a change that succeeds, the clearing of the cache, or the look-up of
a value. `ids` are the fresh identifiers that it draws and `ts` the instants at which it looks
something up. A change reads the clock too, but this is no look-up and is not counted. -/
inductive Step (e : Engine) : (ids : List Uuid) → (ts : List Instant) → Engine → Prop
  | setSetting {key : String} {value : Value} {options : SettingOptions} {o : Occasion}
      {new : Setting} {e' : Engine} (h : e.setSetting key value options o = .ok (new, e')) :
      Step e [o.rowId] [] e'
  | deleteSetting {id : Uuid} {author : Author} {o : Occasion} {e' : Engine}
      (h : e.deleteSetting id author o = .ok e') : Step e [] [] e'
  | createCategory {name : String} {description : Option String} {o : Occasion} {c : Category}
      {e' : Engine} (h : e.createCategory name description o = .ok (c, e')) :
      Step e [o.rowId] [] e'
  | createRule {draft : Draft} {author : Author} {o : Occasion} {new : Rule} {e' : Engine}
      (h : e.createRule draft author o = .ok (new, e')) : Step e [o.rowId] [] e'
  | updateRule {id : Uuid} {draft : Draft} {author : Author} {o : Occasion} {new : Rule}
      {e' : Engine} (h : e.updateRule id draft author o = .ok (new, e')) : Step e [] [] e'
  | deleteRule {id : Uuid} {author : Author} {o : Occasion} {e' : Engine}
      (h : e.deleteRule id author o = .ok e') : Step e [] [] e'
  | clearCache : Step e [] [] e.clearCache
  | lookUp (key : String) (r : Request) (t : Instant) : Step e [] [t] (e.getSetting key r t).2

/-- **One step after another**, with the identifiers and the instants of them all in order. -/
inductive Path (e : Engine) : (ids : List Uuid) → (ts : List Instant) → Engine → Prop
  | refl : Path e [] [] e
  | step {ids ids' : List Uuid} {ts ts' : List Instant} {e₁ e₂ : Engine}
      (path : Path e ids ts e₁) (last : Step e₁ ids' ts' e₂) : Path e (ids ++ ids') (ts ++ ts') e₂

namespace Path

variable {e e₁ e₂ : Engine} {ids ids' : List Uuid} {ts ts' : List Instant}

theorem single (h : Step e ids ts e₁) : Path e ids ts e₁ := Path.refl.step h

/-- Paths are put together, and so are what they draw and when they look up. -/
theorem trans (h : Path e ids ts e₁) (h' : Path e₁ ids' ts' e₂) :
    Path e (ids ++ ids') (ts ++ ts') e₂ := by
  induction h' with
  | refl => rwa [List.append_nil, List.append_nil]
  | step _ last ih =>
    rw [← List.append_assoc, ← List.append_assoc]
    exact ih.step last

end Path

/-- Steps leave the configuration alone. -/
theorem Step.config_eq {e e' : Engine} {ids : List Uuid} {ts : List Instant}
    (h : Step e ids ts e') : e'.config = e.config := by
  cases h with
  | setSetting h => obtain ⟨-, -, rfl⟩ := setSetting_eq_ok_iff.1 h; rfl
  | deleteSetting h => obtain ⟨old, -, -, -, rfl⟩ := deleteSetting_eq_ok_iff.1 h; rfl
  | createCategory h => obtain ⟨-, -, -, rfl⟩ := createCategory_eq_ok_iff.1 h; rfl
  | createRule h => obtain ⟨-, -, -, -, rfl⟩ := createRule_eq_ok_iff.1 h; rfl
  | updateRule h => obtain ⟨-, old, -, -, -, -, rfl⟩ := updateRule_eq_ok_iff.1 h; rfl
  | deleteRule h => obtain ⟨old, -, -, -, rfl⟩ := deleteRule_eq_ok_iff.1 h; rfl
  | clearCache => rfl
  | lookUp key r t => rfl

/-! ### Seeds

A seed goes through its entries and stops where one fails. What has been written until then stays,
so a seed that fails is a path as well. -/

namespace Seeding

variable {s : Seeding} {occasion : Nat → Occasion} {count : SeedReport → SeedReport}
  {write : Engine → Occasion → Except Error (Option Engine)}

/-- **An entry leaves engine and report as they are, or writes**: then the engine is what it has
written, and the report counts it. It leaves them where the seed has failed before, where it fails,
and where a category is there already. -/
theorem next_cases :
    ((s.next occasion count write).engine = s.engine
        ∧ (s.next occasion count write).report = s.report
        ∧ s.entries ≤ (s.next occasion count write).entries)
      ∨ ∃ e, write s.engine (occasion s.entries) = .ok (some e)
        ∧ (s.next occasion count write).engine = e
        ∧ (s.next occasion count write).report = count s.report
        ∧ (s.next occasion count write).entries = s.entries + 1 := by
  unfold next
  split
  · exact .inl ⟨rfl, rfl, Nat.le_refl _⟩
  · cases hwrite : write s.engine (occasion s.entries) with
    | error x => exact .inl ⟨rfl, rfl, Nat.le_refl _⟩
    | ok result =>
      cases result with
      | none => exact .inl ⟨rfl, rfl, Nat.le_succ _⟩
      | some e => exact .inr ⟨e, rfl, rfl, rfl, rfl⟩

/-- An entry takes one occasion at most. -/
theorem entries_next_le : (s.next occasion count write).entries ≤ s.entries + 1 := by
  unfold next
  split
  · exact Nat.le_succ _
  · split <;> simp

/-- Entries are gone through one at a time. -/
theorem entries_foldl_le {α : Type} {f : Seeding → α → Seeding}
    (hf : ∀ s a, (f s a).entries ≤ s.entries + 1) (l : List α) (s : Seeding) :
    (l.foldl f s).entries ≤ s.entries + l.length := by
  induction l generalizing s with
  | nil => exact Nat.le_refl _
  | cons a rest ih =>
    have hrest := ih (f s a)
    have hfirst := hf s a
    rw [List.foldl_cons, List.length_cons]
    omega

end Seeding

section Seed

variable {e e' : Engine} {o : Occasion}

/-- A category that a seed writes is created. -/
theorem createCategory_of_seedCategory {entry : Seed.CategoryEntry}
    (h : seedCategory entry e o = .ok (some e')) :
    ∃ c, e.createCategory entry.name entry.description o = .ok (c, e') := by
  unfold seedCategory at h
  split at h
  · cases h
  · obtain ⟨⟨c, e₁⟩, hc, h'⟩ := bind_eq_ok_iff.1 h
    cases h'
    exact ⟨c, hc⟩

/-- A setting that a seed writes is written in its name. -/
theorem setSetting_of_seedSetting {entry : Seed.SettingEntry}
    (h : seedSetting entry e o = .ok (some e')) :
    ∃ value options new, e.setSetting entry.key value options o = .ok (new, e') := by
  unfold seedSetting at h
  obtain ⟨value, -, h⟩ := bind_eq_ok_iff.1 h
  obtain ⟨categoryId, -, h⟩ := bind_eq_ok_iff.1 h
  obtain ⟨⟨new, e₁⟩, hnew, h'⟩ := bind_eq_ok_iff.1 h
  cases h'
  exact ⟨value, _, new, hnew⟩

/-- A rule that a seed writes is written anew or created. -/
theorem updateRule_or_createRule_of_seedRule {existing : List Rule} {draft : Draft}
    (h : seedRule existing draft e o = .ok (some e')) :
    (∃ old new, e.updateRule old draft e.seedAuthor o = .ok (new, e'))
      ∨ ∃ new, e.createRule draft e.seedAuthor o = .ok (new, e') := by
  unfold seedRule at h
  split at h
  · obtain ⟨⟨new, e₁⟩, hnew, h'⟩ := bind_eq_ok_iff.1 h
    cases h'
    exact .inl ⟨_, new, hnew⟩
  · obtain ⟨⟨new, e₁⟩, hnew, h'⟩ := bind_eq_ok_iff.1 h
    cases h'
    exact .inr ⟨new, hnew⟩

end Seed

/-- **What the writing of one entry keeps, the whole seed keeps.** The three kinds of entries are
gone through one after the other, so there are three things to show. -/
theorem runSeed_induction {P : Seeding → Prop} {e : Engine} {occasion : Nat → Occasion}
    (settings : Seed.Settings) (rules : Seed.Rules) (start : P { engine := e })
    (category : ∀ s entry, P s → P (s.next occasion
      (fun r => { r with categories := r.categories + 1 }) (seedCategory entry)))
    (setting : ∀ s entry, P s → P (s.next occasion
      (fun r => { r with settings := r.settings + 1 }) (seedSetting entry)))
    (rule : ∀ s existing draft, P s → P (s.next occasion
      (fun r => { r with rules := r.rules + 1 }) (seedRule existing draft))) :
    P (e.runSeed settings rules occasion) := by
  unfold runSeed
  refine List.foldlRecOn _ _ ?_ (fun s hs draft _ => rule s _ draft hs)
  refine List.foldlRecOn _ _ ?_ (fun s hs entry _ => setting s entry hs)
  exact List.foldlRecOn _ _ start (fun s hs entry _ => category s entry hs)

/-- So a seed takes no more occasions than it has entries. -/
theorem entries_runSeed_le (e : Engine) (settings : Seed.Settings) (rules : Seed.Rules)
    (occasion : Nat → Occasion) :
    (e.runSeed settings rules occasion).entries ≤ Call.entryCount settings rules := by
  unfold runSeed Call.entryCount
  refine Nat.le_trans (Seeding.entries_foldl_le (fun _ _ => Seeding.entries_next_le) _ _)
    (Nat.add_le_add_right ?_ _)
  refine Nat.le_trans (Seeding.entries_foldl_le (fun _ _ => Seeding.entries_next_le) _ _)
    (Nat.add_le_add_right ?_ _)
  refine Nat.le_trans (Seeding.entries_foldl_le (fun _ _ => Seeding.entries_next_le) _ _) ?_
  exact Nat.le_of_eq (Nat.zero_add _)

/-! ### Every run is a path -/

/-- The identifiers that a seed draws for its first entries. -/
def drawn (occasion : Nat → Occasion) (entries : Nat) : List Uuid :=
  (List.range entries).map fun i => (occasion i).rowId

/-- Those of fewer entries are among those of more. -/
theorem drawn_sublist (occasion : Nat → Occasion) {n m : Nat} (h : n ≤ m) :
    (drawn occasion n).Sublist (drawn occasion m) :=
  (List.range_sublist.2 h).map _

/-- A seed on its way: it has come by a path, with identifiers of the entries so far. -/
def Seeding.Follows (s : Seeding) (e : Engine) (occasion : Nat → Occasion) : Prop :=
  ∃ ids, Path e ids [] s.engine ∧ ids.Sublist (drawn occasion s.entries)

/-- If what an entry writes is one step, the seed goes on along its path. -/
theorem Seeding.Follows.next {s : Seeding} {e : Engine} {occasion : Nat → Occasion}
    {count : SeedReport → SeedReport} {write : Engine → Occasion → Except Error (Option Engine)}
    (hs : s.Follows e occasion)
    (hwrite : ∀ e₁ o e₂, write e₁ o = .ok (some e₂) →
      ∃ ids, Step e₁ ids [] e₂ ∧ ids.Sublist [o.rowId]) :
    (s.next occasion count write).Follows e occasion := by
  obtain ⟨ids, hpath, hids⟩ := hs
  obtain ⟨hengine, -, hentries⟩ | ⟨e', hok, hengine, -, hentries⟩ := s.next_cases
  · exact ⟨ids, hengine ▸ hpath, hids.trans (drawn_sublist occasion hentries)⟩
  · -- The entry is the next one, so its identifier comes after those drawn before.
    obtain ⟨ids', hstep, hids'⟩ := hwrite _ _ _ hok
    refine ⟨ids ++ ids', hengine ▸ hpath.step hstep, ?_⟩
    rw [hentries, drawn, List.range_succ, List.map_append]
    exact hids.append hids'

/-- **A seed is a path**, which draws identifiers of its entries and looks nothing up. By induction
over the entries, each of which is one step or none. -/
theorem exists_path_runSeed (e : Engine) (settings : Seed.Settings) (rules : Seed.Rules)
    (occasion : Nat → Occasion) :
    ∃ ids, Path e ids [] (e.runSeed settings rules occasion).engine
      ∧ ids.Sublist (drawn occasion (Call.entryCount settings rules)) := by
  have hfollows : (e.runSeed settings rules occasion).Follows e occasion := by
    have hstart : Seeding.Follows { engine := e } e occasion := ⟨[], .refl, List.nil_sublist _⟩
    refine runSeed_induction (P := fun s => s.Follows e occasion) settings rules hstart ?_ ?_ ?_
    · intro s entry hs
      refine hs.next (fun e₁ o e₂ h => ?_)
      obtain ⟨c, hc⟩ := createCategory_of_seedCategory h
      exact ⟨_, .createCategory hc, List.Sublist.refl _⟩
    · intro s entry hs
      refine hs.next (fun e₁ o e₂ h => ?_)
      obtain ⟨value, options, new, hnew⟩ := setSetting_of_seedSetting h
      exact ⟨_, .setSetting hnew, List.Sublist.refl _⟩
    · intro s existing draft hs
      refine hs.next (fun e₁ o e₂ h => ?_)
      obtain ⟨old, new, hnew⟩ | ⟨new, hnew⟩ := updateRule_or_createRule_of_seedRule h
      · exact ⟨_, .updateRule hnew, List.nil_sublist _⟩
      · exact ⟨_, .createRule hnew, List.Sublist.refl _⟩
  obtain ⟨ids, hpath, hids⟩ := hfollows
  exact ⟨ids, hpath, hids.trans (drawn_sublist occasion (entries_runSeed_le e _ _ _))⟩

/-- What is computed by look-ups in a view is read along a path of look-ups. All of them are made at
the one instant of the view. -/
theorem exists_path_read {α : Type} (e : Engine) (t : Instant) {m : Pricing α}
    (hm : (e.view t).OnlyResolves m) :
    ∃ ts, Path e [] ts (e.read m).2 ∧ ∀ x ∈ ts, x = t := by
  suffices h : ∀ c, Relation.ReflTransGen (e.view t).Fills e.cache c →
      ∃ ts, Path e [] ts { e with cache := c } ∧ ∀ x ∈ ts, x = t from h _ (hm e.cache)
  intro c hc
  -- The look-ups come one after the other, and each of them is a step.
  induction hc with
  | refl => exact ⟨[], .refl, by simp⟩
  | tail _ hfill ih =>
    obtain ⟨ts, hpath, hts⟩ := ih
    obtain ⟨key, r, rfl⟩ := hfill
    refine ⟨ts ++ [t], hpath.step (.lookUp key r t), fun x hx => ?_⟩
    rcases List.mem_append.1 hx with hx | hx
    · exact hts x hx
    · exact List.mem_singleton.1 hx

/-- A change that is settled is one step, or none where it is refused. -/
theorem exists_path_settle {α : Type} (e : Engine) (answer : α → Answer)
    {result : Except Error (α × Engine)} {ids : List Uuid}
    (h : ∀ a e', result = .ok (a, e') → Step e ids [] e') :
    ∃ ids', Path e ids' [] (e.settle answer result).2 ∧ ids'.Sublist ids := by
  cases result with
  | error x => exact ⟨[], .refl, List.nil_sublist _⟩
  | ok result => exact ⟨ids, .single (h _ _ rfl), List.Sublist.refl _⟩

theorem exists_path_settleDeletion (e : Engine) {result : Except Error Engine}
    (h : ∀ e', result = .ok e' → Step e [] [] e') :
    Path e [] [] (e.settleDeletion result).2 := by
  cases result with
  | error x => exact .refl
  | ok e' => exact .single (h e' rfl)

/-- A seed that is carried out drops the cache at its end. -/
theorem exists_path_seed (e : Engine) (settings : Seed.Settings) (rules : Seed.Rules)
    (occasion : Nat → Occasion) :
    ∃ ids, Path e ids [] (e.seed settings rules occasion).2
      ∧ ids.Sublist (drawn occasion (Call.entryCount settings rules)) := by
  obtain ⟨ids, hpath, hids⟩ := exists_path_runSeed e settings rules occasion
  unfold seed
  dsimp only
  cases (e.runSeed settings rules occasion).error with
  | some x => exact ⟨ids, hpath, hids⟩
  | none =>
    refine ⟨ids ++ [], hpath.step .clearCache, ?_⟩
    rwa [List.append_nil]

/-- **A call is a path**, which draws and looks up no more than the call does. Here the functions
of the engine are gone through, for the last time: all that is proved of runs from here on is
proved of steps. -/
theorem exists_path_perform (e : Engine) (c : Call) :
    ∃ ids ts, Path e ids ts (e.perform c) ∧ ids.Sublist c.rowIds ∧ ∀ t ∈ ts, t ∈ c.readings := by
  have hchange : ∀ {c : Call} {e' : Engine}, (∃ ids, Path e ids [] e' ∧ ids.Sublist c.rowIds) →
      ∃ ids ts, Path e ids ts e' ∧ ids.Sublist c.rowIds ∧ ∀ t ∈ ts, t ∈ c.readings := by
    rintro c e' ⟨ids, hpath, hids⟩
    exact ⟨ids, [], hpath, hids, by simp⟩
  have hread : ∀ {c : Call} {e' : Engine} {t : Instant}, c.readings = [t] →
      (∃ ts, Path e [] ts e' ∧ ∀ x ∈ ts, x = t) →
      ∃ ids ts, Path e ids ts e' ∧ ids.Sublist c.rowIds ∧ ∀ t ∈ ts, t ∈ c.readings := by
    rintro c e' t hc ⟨ts, hpath, hts⟩
    refine ⟨[], ts, hpath, List.nil_sublist _, fun x hx => ?_⟩
    rw [hc, hts x hx]
    exact List.mem_singleton_self t
  cases c with
  | setSetting key value options o =>
    exact hchange (e.exists_path_settle .setting fun _ _ h => .setSetting h)
  | deleteSetting id author o =>
    exact hchange ⟨[], e.exists_path_settleDeletion fun _ h => .deleteSetting h, .refl _⟩
  | createCategory name description o =>
    exact hchange (e.exists_path_settle .category fun _ _ h => .createCategory h)
  | createRule draft author o =>
    exact hchange (e.exists_path_settle .rule fun _ _ h => .createRule h)
  | updateRule id draft author o =>
    exact hchange (e.exists_path_settle .rule fun _ _ h => .updateRule h)
  | deleteRule id author o =>
    exact hchange ⟨[], e.exists_path_settleDeletion fun _ h => .deleteRule h, .refl _⟩
  | seed settings rules occasion => exact hchange (e.exists_path_seed settings rules occasion)
  | getSetting key r t => exact hread rfl ⟨[t], .single (.lookUp key r t), by simp⟩
  | getPrice op r t =>
    exact hread rfl (e.exists_path_read t ((e.view t).looksUp_price op r).onlyResolves)
  | getQuote op r t =>
    exact hread rfl
      (e.exists_path_read t ((e.view t).looksUp_quote op r e.config.defaultTaxMode).onlyResolves)
  | getOrderPrice op lines r t =>
    exact hread rfl (e.exists_path_read t ((e.view t).looksUp_order op r lines).onlyResolves)
  -- The other reads leave the engine as it is.
  | _ => exact hchange ⟨[], .refl, List.nil_sublist _⟩

/-- **Every run is a path**, which draws and looks up no more than its calls do. -/
theorem exists_path_run (e : Engine) (calls : List Call) :
    ∃ ids ts, Path e ids ts (e.run calls) ∧ ids.Sublist (calls.flatMap Call.rowIds)
      ∧ ∀ t ∈ ts, t ∈ calls.flatMap Call.readings := by
  induction calls generalizing e with
  | nil => exact ⟨[], [], .refl, List.Sublist.refl _, by simp⟩
  | cons c rest ih =>
    obtain ⟨ids, ts, hpath, hids, hts⟩ := e.exists_path_perform c
    obtain ⟨ids', ts', hpath', hids', hts'⟩ := ih (e.perform c)
    refine ⟨ids ++ ids', ts ++ ts', hpath.trans hpath', ?_, fun t ht => ?_⟩
    · rw [List.flatMap_cons]
      exact hids.append hids'
    · rw [List.flatMap_cons]
      rcases List.mem_append.1 ht with ht | ht
      · exact List.mem_append_left _ (hts t ht)
      · exact List.mem_append_right _ (hts' t ht)

/-- **What every step keeps, every run keeps.** This is how an invariant is lifted to runs where it
does not matter which identifiers are drawn. -/
theorem run_keeps {P : Engine → Prop}
    (hstep : ∀ {e e' : Engine} {ids : List Uuid} {ts : List Instant}, Step e ids ts e' → P e → P e')
    {e : Engine} (calls : List Call) (he : P e) : P (e.run calls) := by
  suffices h : ∀ {ids ts e'}, Path e ids ts e' → P e' by
    obtain ⟨ids, ts, hpath, -, -⟩ := e.exists_path_run calls
    exact h hpath
  intro ids ts e' hpath
  induction hpath with
  | refl => exact he
  | step _ last ih => exact hstep last ih

/-- In particular the configuration stays. -/
theorem run_config (e : Engine) (calls : List Call) : (e.run calls).config = e.config :=
  run_keeps (P := fun e₁ => e₁.config = e.config) (fun h he => h.config_eq.trans he) calls rfl

/-! ### New engines -/

/-- **An engine is new** if its weights are valid, and then it holds nothing. -/
theorem create_eq_ok_iff {config : EngineConfig} {e : Engine} :
    Engine.create config = .ok e
      ↔ config.weights.isValid = true
        ∧ e = { config, cache :=
                  if config.cacheSeconds = 0 then none
                  else some (.ofSeconds config.cacheSeconds.toNat) } := by
  unfold Engine.create Weights.validate
  rw [bind_check_eq_ok_iff, ofCheck_eq_ok_iff]
  cases hvalid : config.weights.isValid <;> simp [eq_comm, pure, Except.pure]

/-- The weights of all runs of new engines are valid. -/
theorem isValid_weights_run {config : EngineConfig} {e : Engine}
    (h : Engine.create config = .ok e) (calls : List Call) :
    (e.run calls).config.weights.isValid = true := by
  obtain ⟨hvalid, rfl⟩ := create_eq_ok_iff.1 h
  rw [run_config]
  exact hvalid

/-- The engine with the default configuration. The examples begin with it. -/
def initial : Engine := { config := {}, cache := some (.ofSeconds 30) }

theorem create_initial : Engine.create {} = .ok initial := rfl

end Engine

/-- Occasion number `n` of an example: `n` ticks after the beginning of 1970, with
identifiers that no other occasion has. -/
def Occasion.number (n : Nat) : Occasion where
  now := ⟨n⟩
  rowId := (Uuid.ofNat? (2 * n)).getD .nil
  recordId := (Uuid.ofNat? (2 * n + 1)).getD .nil

end Tariff
