import Tariff.Proofs.Seeded
import Tariff.Proofs.Values

/-!
# Engines made from files

An engine is made from three files: they are loaded, a new engine is tuned by the first, and it
is seeded with the other two. Loading looks at the weights and at every rule, so that neither is
a reason to fail later. What has not been looked at before are the entries of the settings file,
and the actor in whose name all is written.

Each entry is written to an engine that the entries before it have changed, and writing can fail
in many ways. On an engine that was new, and with options that name neither a version nor an
expiry, few of them are left, and these can be told from the file alone: `Seed.CategoryEntry.fault?`
and `Seed.SettingEntry.fault?` say what is wrong with an entry, without an engine. A loop ends
with the first fault of its entries (`Seeding.error_goThrough`), and a seed with the first fault
of the configuration (`Engine.errorOf_seed`).

What is wrong with the files is one half of the matter. The other is what there is if nothing
is: a new engine, tuned by its file, that holds what the others say (`Engine.holdsSeed_of_create`).
-/

namespace Tariff

/-! ## What is wrong with a file

An entry of the file is looked at by itself, apart from one thing: a setting may name a category,
and this has to be declared in the file. -/

/-- What is wrong with a text that must not be blank. A name, a key and the actor are checked so,
each with a problem of its own. -/
def blankFault? (text : String) (problem : Problem) : Option Error :=
  if Text.isBlank text then some (.invalid problem) else none

theorem blankFault?_eq_none_iff {text : String} {problem : Problem} :
    blankFault? text problem = none ↔ Text.isBlank text = false := by
  unfold blankFault?
  split <;> simp_all

namespace Seed

/-- **What is wrong with a category.** That its name comes twice is not: a category that is there
already is passed over. So it is enough to look at the entry. -/
def CategoryEntry.fault? (x : CategoryEntry) : Option Error :=
  blankFault? x.name .blankCategoryName

namespace SettingEntry

/-- What is wrong with the value of a setting: it is read as a value of the type that the entry
names, and this may be refused. -/
def valueFault? (x : SettingEntry) : Option Error :=
  match Value.ofJson x.dataType x.value with
  | .error refusal => some (.invalid (.value refusal))
  | .ok _ => none

/-- What is wrong with the category of a setting, in a file with some categories. All categories
of the file are written before its settings, so that it does not matter where in the file the
category stands. -/
def categoryFault? (x : SettingEntry) (declared : List String) : Option Error :=
  (x.category.filter (· ∉ declared)).map .categoryNotFound

/-- **What is wrong with a setting** that is written in the name of an actor: its value, or else its
category, or else its key, or else the actor. If there are several of these, the first is reported;
this is the order in which the steps of writing it come. -/
def fault? (x : SettingEntry) (declared : List String) (actor : String) : Option Error :=
  x.valueFault?.or <| (x.categoryFault? declared).or <|
    (blankFault? x.key .blankKey).or (blankFault? actor .blankActor)

/-- Nothing is wrong with a value that is one of its type. -/
theorem valueFault?_eq_none_iff {x : SettingEntry} :
    x.valueFault? = none ↔ ∃ value, Value.ofJson x.dataType x.value = .ok value := by
  unfold valueFault?
  cases Value.ofJson x.dataType x.value <;> simp

/-- Nothing is wrong with a category that the file declares, nor with none. -/
theorem categoryFault?_eq_none_iff {x : SettingEntry} {declared : List String} :
    x.categoryFault? declared = none ↔ ∀ name, x.category = some name → name ∈ declared := by
  simp [categoryFault?]

end SettingEntry

/-- The names of the categories that a file declares. -/
def Settings.declared (s : Settings) : List String := s.categories.map CategoryEntry.name

end Seed

namespace Config

/-- **What is wrong with a configuration**, in the order in which an engine is seeded: categories,
settings, rules, and the entries of each as in their file. A rule is wrong only if it is written in
nobody's name, as everything else about it has been checked when the files were loaded. -/
def faults (c : Config) : List Error :=
  c.settings.categories.filterMap Seed.CategoryEntry.fault?
    ++ c.settings.settings.filterMap (·.fault? c.settings.declared c.engine.seedActor)
    ++ c.rules.rules.filterMap fun _ => blankFault? c.engine.seedActor .blankActor

/-- **A configuration that an engine can be seeded with.** This is the same as that nothing is wrong
with it, in terms of the entries and without an order. -/
structure IsSeedable (c : Config) : Prop where
  categories_named : ∀ x ∈ c.settings.categories, Text.isBlank x.name = false
  keys_named : ∀ x ∈ c.settings.settings, Text.isBlank x.key = false
  values_typed : ∀ x ∈ c.settings.settings, ∃ value, Value.ofJson x.dataType x.value = .ok value
  categories_declared : ∀ x ∈ c.settings.settings, ∀ name, x.category = some name →
    ∃ y ∈ c.settings.categories, y.name = name
  actor_named : Text.isBlank c.engine.seedActor = false
    ∨ c.settings.settings = [] ∧ c.rules.rules = []

/-- **Nothing is wrong with a configuration that an engine can be seeded with.** The actor is needed
for settings and rules, and for categories it is not, so that a file with categories alone may be
seeded in nobody's name. -/
theorem faults_eq_nil_iff {c : Config} : c.faults = [] ↔ c.IsSeedable := by
  unfold faults Seed.SettingEntry.fault? Seed.CategoryEntry.fault?
  simp only [List.append_eq_nil_iff, List.filterMap_eq_nil_iff, Option.or_eq_none_iff,
    blankFault?_eq_none_iff, Seed.SettingEntry.valueFault?_eq_none_iff,
    Seed.SettingEntry.categoryFault?_eq_none_iff, Seed.Settings.declared, List.mem_map]
  constructor
  · rintro ⟨⟨hcategories, hsettings⟩, hrules⟩
    refine ⟨hcategories, fun x hx => (hsettings x hx).2.2.1, fun x hx => (hsettings x hx).1,
      fun x hx => (hsettings x hx).2.1, ?_⟩
    cases hactor : Text.isBlank c.engine.seedActor with
    | false => exact .inl rfl
    | true =>
      refine .inr ⟨List.eq_nil_iff_forall_not_mem.2 fun x hx => ?_,
        List.eq_nil_iff_forall_not_mem.2 fun x hx => ?_⟩
      · exact absurd (hactor.symm.trans (hsettings x hx).2.2.2) nofun
      · exact absurd (hactor.symm.trans (hrules x hx)) nofun
  · rintro ⟨hcategories, hkeys, hvalues, hdeclared, hactor⟩
    obtain hactor | ⟨hsettings, hrules⟩ := hactor
    · exact ⟨⟨hcategories, fun x hx => ⟨hvalues x hx, hdeclared x hx, hkeys x hx, hactor⟩⟩,
        fun x _ => hactor⟩
    · rw [hsettings, hrules]
      exact ⟨⟨hcategories, List.forall_mem_nil _⟩, List.forall_mem_nil _⟩

end Config

/-! ## Loops that end in an error

A seed is three loops, and a loop goes on until an entry fails. That it fails with the first fault
of its entries is proved for any loop whose faults are foretold. What is foretold of each kind of
entry comes after that. -/

namespace Engine

variable {α : Type} {occasion : Nat → Occasion}
  {write : α → Engine → Occasion → Except Error (Option Engine)} {e e' : Engine} {n k : Nat}
  {entries : List α} {fault? : α → Option Error}

/-- **The faults of entries are foretold**: after entries that have succeeded, writing the next one
fails with its fault, or succeeds if it has none.

The engine is not the one at the beginning, but any that the entries before can have led to. So a
fault must be told without the engine, and it has to be proved of the engines on the way that they
make no difference. -/
def Foretold (occasion : Nat → Occasion)
    (write : α → Engine → Occasion → Except Error (Option Engine)) (e : Engine) (n : Nat)
    (entries : List α) (fault? : α → Option Error) : Prop :=
  ∀ done a rest k e₁, entries = done ++ a :: rest → Wrote occasion write e n done k e₁ →
    errorOf (write a e₁ (occasion (n + done.length))) = fault? a

/-- What is foretold of a list of entries is foretold of it without the last one, which is what an
induction from the end needs. -/
theorem Foretold.of_concat {a : α} (h : Foretold occasion write e n (entries ++ [a]) fault?) :
    Foretold occasion write e n entries fault? := by
  intro done b rest k e₁ hsplit hdone
  refine h done b (rest ++ [a]) k e₁ ?_ hdone
  rw [hsplit, List.append_assoc, List.cons_append]

namespace Seeding

variable {s s' : Seeding} {count : SeedReport → SeedReport}

/-- The error of an entry ends the seed, and if it has none the seed goes on. -/
theorem error_next {write : Engine → Occasion → Except Error (Option Engine)}
    (hs : s.error = none) :
    (s.next occasion count write).error = errorOf (write s.engine (occasion s.entries)) := by
  cases hwrite : write s.engine (occasion s.entries) with
  | error x =>
    unfold next
    rw [hs, hwrite]
    rfl
  | ok result =>
    cases result with
    | none =>
      rw [next_of_ok_none hs hwrite]
      exact hs
    | some e₁ =>
      rw [next_of_ok_some hs hwrite]
      exact hs

/-- **A seed that has ended** goes through nothing more, so that the first error stays. -/
theorem goThrough_of_ended {x : Error} (hs : s.error = some x) :
    s.goThrough occasion count write entries = s := by
  induction entries using List.reverseRecOn with
  | nil => rfl
  | append_singleton done a ih =>
    rw [goThrough_concat, ih]
    exact if_pos (Option.isSome_of_eq_some hs)

/-- **A loop ends with the first fault of its entries.** The induction is on the entries from the
end: if one of the earlier ones was at fault the loop had ended, and otherwise they have all been
written, so that the fault of the last one is what was foretold. -/
theorem error_goThrough (hs : s.error = none)
    (h : Foretold occasion write s.engine s.entries entries fault?) :
    (s.goThrough occasion count write entries).error = (entries.filterMap fault?).head? := by
  rw [List.head?_filterMap]
  induction entries using List.reverseRecOn with
  | nil => exact hs
  | append_singleton done a ih =>
    have herror := ih h.of_concat
    rw [goThrough_concat, List.findSome?_append]
    cases hfirst : done.findSome? fault? with
    | some x =>
      rw [hfirst] at herror
      unfold next
      rw [herror]
      exact herror
    | none =>
      rw [hfirst] at herror
      obtain ⟨hentries, k, hdone⟩ := exists_wrote_engine herror
      rw [error_next herror, hentries, h done a [] k _ rfl hdone]
      simp

/-- **A loop ends in an error, or all its entries have succeeded.** In the second case it is known
how many entries there have been, so that the next loop finds its own occasions. -/
theorem goThrough_cases (hs' : s' = s.goThrough occasion count write entries) (hs : s.error = none)
    (h : Foretold occasion write s.engine s.entries entries fault?) :
    (∃ x, (entries.filterMap fault?).head? = some x ∧ s'.error = some x)
      ∨ (entries.filterMap fault?).head? = none ∧ s'.error = none
        ∧ s'.entries = s.entries + entries.length
        ∧ ∃ k, Wrote occasion write s.engine s.entries entries k s'.engine := by
  have herror : s'.error = (entries.filterMap fault?).head? := by
    rw [hs']
    exact error_goThrough hs h
  cases hfirst : (entries.filterMap fault?).head? with
  | some x => exact .inl ⟨x, rfl, herror.trans hfirst⟩
  | none =>
    rw [hfirst] at herror
    refine .inr ⟨rfl, herror, ?_⟩
    rw [hs'] at herror ⊢
    exact exists_wrote_engine herror

end Seeding

/-- **A seed ends with the first fault** of its categories, its settings and its rules, in this
order. The settings need to be foretold only of an engine that has all categories, and the rules of
one that has all settings as well. -/
theorem errorOf_seed {settings : Seed.Settings} {rules : Seed.Rules}
    {ofCategory : Seed.CategoryEntry → Option Error} {ofSetting : Seed.SettingEntry → Option Error}
    {ofRule : Draft → Option Error}
    (hcategories : Foretold occasion seedCategory e 0 settings.categories ofCategory)
    (hsettings : ∀ {k e₁}, Wrote occasion seedCategory e 0 settings.categories k e₁ →
      Foretold occasion seedSetting e₁ settings.categories.length settings.settings ofSetting)
    (hrules : ∀ {k e₁ j e₂}, Wrote occasion seedCategory e 0 settings.categories k e₁ →
      Wrote occasion seedSetting e₁ settings.categories.length settings.settings j e₂ →
      Foretold occasion (seedRule e₂.store.allRules) e₂
        (settings.categories.length + settings.settings.length) rules.rules ofRule) :
    errorOf (e.seed settings rules occasion).1
      = (settings.categories.filterMap ofCategory ++ settings.settings.filterMap ofSetting
        ++ rules.rules.filterMap ofRule).head? := by
  have hrun : ∃ c₁ c₂ c₃ s₁ s₂,
      s₁ = (Seeding.mk e {} 0 none).goThrough occasion c₁ seedCategory settings.categories
      ∧ s₂ = s₁.goThrough occasion c₂ seedSetting settings.settings
      ∧ e.runSeed settings rules occasion
        = s₂.goThrough occasion c₃ (seedRule s₂.engine.store.allRules) rules.rules :=
    ⟨_, _, _, _, _, rfl, rfl, rfl⟩
  obtain ⟨c₁, c₂, c₃, s₁, s₂, hs₁, hs₂, hrun⟩ := hrun
  have herror : errorOf (e.seed settings rules occasion).1
      = (e.runSeed settings rules occasion).error := by
    unfold seed
    cases h : (e.runSeed settings rules occasion).error with
    | none => simp only [h, errorOf]
    | some x => simp only [h, errorOf]
  rw [herror, hrun, List.head?_append, List.head?_append]
  -- Each loop either ends the seed or hands an engine to the next one.
  obtain ⟨x, hfirst, hended⟩ | ⟨hfirst, herror₁, hentries₁, k, hwrote₁⟩ :=
    Seeding.goThrough_cases hs₁ rfl hcategories
  · -- The loops that come after an error go through nothing.
    rw [hs₂, Seeding.goThrough_of_ended hended, Seeding.goThrough_of_ended hended, hended, hfirst]
    rfl
  · rw [Nat.zero_add] at hentries₁
    rw [hfirst]
    obtain ⟨x, hsecond, hended⟩ | ⟨hsecond, herror₂, hentries₂, j, hwrote₂⟩ :=
      Seeding.goThrough_cases hs₂ herror₁ (hentries₁ ▸ hsettings hwrote₁)
    · rw [Seeding.goThrough_of_ended hended, hended, hsecond]
      rfl
    · rw [hentries₁] at hentries₂ hwrote₂
      rw [hsecond]
      exact Seeding.error_goThrough herror₂ (hentries₂ ▸ hrules hwrote₁ hwrote₂)

/-! ## Entries that are written to a new engine

What can go wrong with an entry is now compared with what was foretold, entry by entry. An engine
that was new has no category with a blank name, no rule at all before the rules are written, and of
categories just those of the file. -/

section Entries

variable {o : Occasion}

/-- A change in nobody's name is not recorded. -/
theorem ofChange_of_isBlank {author : Author} (h : Text.isBlank author.actor = true)
    (subject : Subject) (change : Change) (old new : Option Json) (id : Uuid) (t : Instant) :
    AuditRecord.ofChange (some subject) change old new author id t
      = .error (.invalid .blankActor) :=
  if_pos h

/-- **A category fails with its fault**, if none with a blank name is stored. Were there one, an
entry with this name would be passed over as known, and not be refused. -/
theorem errorOf_seedCategory {x : Seed.CategoryEntry}
    (h : Text.isBlank x.name = true → (e.store.categoryNamed? x.name).isSome = false) :
    errorOf (seedCategory x e o) = x.fault? := by
  unfold Seed.CategoryEntry.fault? blankFault?
  cases hblank : Text.isBlank x.name with
  | true =>
    unfold seedCategory createCategory
    rw [h hblank, hblank]
    rfl
  | false =>
    refine errorOf_eq_none_iff.2 ?_
    cases hnamed : e.store.categoryNamed? x.name with
    | some c => exact ⟨_, seedCategory_eq_ok_iff.2 (.inl ⟨by rw [hnamed]; rfl, rfl⟩)⟩
    | none => exact ⟨_, seedCategory_eq_ok_iff.2 (.inr ⟨hnamed, hblank, rfl⟩)⟩

/-- **Of categories that were written none has a blank name**, since blank names are refused. -/
theorem Wrote.isBlank_name {done : List Seed.CategoryEntry}
    (h : Wrote occasion seedCategory e n done k e') (hempty : e.store.categories = .empty)
    (he : e.store.WellFormed) :
    ∀ c ∈ e'.store.categories.values, Text.isBlank c.name = false := by
  induction h with
  | nil =>
    rw [hempty]
    nofun
  | skip before h ih => exact ih
  | write before h ih =>
    have hwell := before.wellFormed step_of_seedCategory he
    obtain ⟨-, heq⟩ | ⟨-, hblank, heq⟩ := seedCategory_eq_ok_iff.1 h
    · cases heq
    · cases heq
      intro c hc
      rcases (hwell.categories_keyed.mem_values_insert _ c).1 hc with rfl | ⟨hold, -⟩
      · exact hblank
      · exact ih c hold

/-- **A setting that names neither a version nor an expiry** can fail on its key and its actor only,
if it has its type and its category is stored. -/
theorem errorOf_setSetting {key : String} {value : Value} {options : SettingOptions}
    (htype : options.checkType key value = .ok ())
    (hcategory : options.checkCategory e.store = .ok ()) (hversion : options.expectedVersion = none)
    (hexpiry : options.expiryDate = none) (ho : o.refusal = none) :
    errorOf (e.setSetting key value options o)
      = (blankFault? key .blankKey).or (blankFault? options.author.actor .blankActor) := by
  have hversion' (old : Option Setting) : options.checkVersion key old = .ok () := by
    unfold SettingOptions.checkVersion
    rw [hversion]
  have hwindow (old : Option Setting) : (options.written key value old o).checkWindow = .ok () := by
    unfold Setting.checkWindow
    rw [show (options.written key value old o).expiryDate = options.expiryDate by cases old <;> rfl,
      hexpiry]
  unfold blankFault?
  cases hkey : Text.isBlank key with
  | true =>
    unfold setSetting
    rw [hkey]
    rfl
  | false =>
    cases hactor : Text.isBlank options.author.actor with
    | true =>
      -- All goes well as far as the record.
      have hrecord (change : Change) (old : Option Setting) (new : Setting) :
          AuditRecord.ofSettingChange change old (some new) options.author o.recordId o.now
            = .error (.invalid .blankActor) := ofChange_of_isBlank hactor _ _ _ _ _ _
      rw [setSetting_eq_steps rfl, hkey]
      simp only [Bool.false_eq_true, if_false]
      rw [errorOf_bind_of_ok htype, errorOf_bind_of_ok hcategory, errorOf_bind_of_ok (hversion' _),
        errorOf_bind_of_ok (hwindow _), hrecord]
      rfl
    | false =>
      exact errorOf_eq_none_iff.2 ⟨_, setSetting_eq_ok_iff.2
        ⟨⟨hkey, htype, hcategory, hversion' _, hwindow _, hactor, ho⟩, rfl, rfl⟩⟩

/-- **The category of an entry is found if the file declares it**, and not otherwise; and then it is
stored, as writing the setting asks once more. -/
theorem seedCategoryId_cases {x : Seed.SettingEntry} {declared : List String}
    (he : e.store.WellFormed)
    (hnames : ∀ name, name ∈ e.store.categories.values.map Category.name ↔ name ∈ declared) :
    (∃ error, x.categoryFault? declared = some error ∧ seedCategoryId x e = .error error)
      ∨ x.categoryFault? declared = none ∧ ∃ id, seedCategoryId x e = .ok id
        ∧ (x.options id e.seedAuthor).checkCategory e.store = .ok () := by
  unfold Seed.SettingEntry.categoryFault? seedCategoryId
  cases x.category with
  | none => exact .inr ⟨rfl, none, rfl, rfl⟩
  | some name =>
    have hdeclared : (e.store.categoryNamed? name).isSome = true ↔ name ∈ declared :=
      isSome_categoryNamed?_iff.trans (hnames name)
    dsimp only
    cases hnamed : e.store.categoryNamed? name with
    | none =>
      rw [hnamed] at hdeclared
      have hnot : name ∉ declared := fun hmem => nomatch hdeclared.2 hmem
      exact .inl ⟨_, by simp [Option.filter, hnot], rfl⟩
    | some c =>
      rw [hnamed] at hdeclared
      have hmem : name ∈ declared := hdeclared.1 rfl
      have hstored : e.store.category? c.id = some c :=
        (he.categories_keyed.mem_values_iff c).1 (List.mem_of_find?_eq_some hnamed)
      refine .inr ⟨by simp [Option.filter, hmem], some c.id, rfl, ?_⟩
      unfold SettingOptions.checkCategory
      exact if_pos (by rw [hstored]; rfl)

/-- **A setting fails with its fault** after the categories of the file. It has its type because its
value was read so; its category is stored because the file declares it; and the entry names neither
a version that could be wrong nor an expiry before which it would have to begin. -/
theorem errorOf_seedSetting {x : Seed.SettingEntry} {declared : List String}
    (he : e.store.WellFormed)
    (hnames : ∀ name, name ∈ e.store.categories.values.map Category.name ↔ name ∈ declared)
    (ho : o.refusal = none) :
    errorOf (seedSetting x e o) = x.fault? declared e.config.seedActor := by
  unfold Seed.SettingEntry.fault? Seed.SettingEntry.valueFault? seedSetting
  cases hvalue : Value.ofJson x.dataType x.value with
  | error refusal => rfl
  | ok value =>
    obtain ⟨error, hfault, hid⟩ | ⟨hfault, id, hid, hstored⟩ :=
      seedCategoryId_cases (x := x) he hnames
    · rw [hfault, hid]
      rfl
    · rw [hfault, hid]
      refine (errorOf_bind_pure _).trans (errorOf_setSetting ?_ hstored rfl rfl ho)
      unfold SettingOptions.checkType
      exact if_pos (Value.dataType_of_ofJson hvalue).symm

/-- **A rule fails on its actor**, if it is valid and there is none that it replaces. Rules of the
same file do not count: they are not in the list of rules that was read before the loop. -/
theorem errorOf_seedRule {draft : Draft} (hvalid : draft.validate = .ok ())
    (ho : o.refusal = none) :
    errorOf (seedRule [] draft e o) = blankFault? e.config.seedActor .blankActor := by
  unfold blankFault?
  cases hactor : Text.isBlank e.config.seedActor with
  | true =>
    have hrecord (new : Rule) :
        AuditRecord.ofRuleChange .created none (some new) e.seedAuthor o.recordId o.now
          = .error (.invalid .blankActor) := ofChange_of_isBlank hactor _ _ _ _ _ _
    refine (errorOf_bind_pure _).trans ?_
    refine (errorOf_bind_of_ok (ofCheck_eq_ok_iff.2 hvalid) _).trans ?_
    dsimp only
    rw [hrecord]
    rfl
  | false =>
    exact errorOf_eq_none_iff.2
      ⟨_, (seedRule_eq_ok_iff_of_new rfl).2 ⟨hvalid, hactor, ho, rfl⟩⟩

/-- The settings of a seed touch neither categories nor rules. So the categories stay those of the
file, and no rule is there when the rules are written. -/
theorem Wrote.eq_of_seedSetting {done : List Seed.SettingEntry}
    (h : Wrote occasion seedSetting e n done k e') :
    e'.store.categories = e.store.categories ∧ e'.store.rules = e.store.rules := by
  induction h with
  | nil => exact ⟨rfl, rfl⟩
  | skip before h ih => exact absurd h seedSetting_ne_ok_none
  | write before h ih =>
    obtain ⟨value, new, e₁, -, -, hset, heq⟩ := seedSetting_eq_ok_iff.1 h
    obtain ⟨-, -, rfl⟩ := setSetting_eq_ok_iff.1 hset
    cases heq
    exact ih

end Entries

/-- **A new engine that is seeded ends with the first fault of the configuration**, if its rules are
valid. That the identifiers of its categories differ is needed so that no category takes the place
of another one that the file declares as well. -/
theorem errorOf_seed_of_create {config : Config} (h : Engine.create config.engine = .ok e)
    (hvalid : ∀ draft ∈ config.rules.rules, draft.validate = .ok ())
    (hids : (drawn occasion config.settings.categories.length).Nodup)
    (haccepts : ∀ i < Call.entryCount config.settings config.rules, (occasion i).refusal = none) :
    errorOf (e.seed config.settings config.rules occasion).1 = config.faults.head? := by
  obtain ⟨he, hunused⟩ := unused_of_create h
  obtain ⟨-, hnew⟩ := create_eq_ok_iff.1 h
  have hconfig : e.config = config.engine := by rw [hnew]
  have hempty : e.store = .empty := by rw [hnew]; rfl
  have hcategories : e.store.categories = .empty := by rw [hempty]; rfl
  have hfresh : e.Fresh occasion 0 config.settings.categories.length :=
    .of_nodup hids fun _ _ => hunused _
  refine errorOf_seed ?_ (fun {k e₁} hfirst => ?_) (fun {k e₁ j e₂} hfirst hsecond => ?_)
  · -- A category with a blank name would have to be one that was written.
    intro done x rest k e₁ hsplit hdone
    refine errorOf_seedCategory fun hblank => Bool.eq_false_iff.2 fun hnamed => ?_
    obtain ⟨c, hc, hname⟩ := List.mem_map.1 (isSome_categoryNamed?_iff.1 hnamed)
    have hnamed' := hdone.isBlank_name hcategories he c hc
    rw [hname, hblank] at hnamed'
    cases hnamed'
  · -- The categories are those of the file, and the actor is still the same.
    intro done x rest j e₂ hsplit hdone
    have hseeded := hfirst.categoriesSeeded hcategories he (by rwa [Nat.zero_add])
    have he₁ := hfirst.wellFormed step_of_seedCategory he
    have hactor : config.engine.seedActor = e₂.config.seedActor := by
      rw [hdone.config_eq step_of_seedSetting, hfirst.config_eq step_of_seedCategory, hconfig]
    rw [hactor]
    refine errorOf_seedSetting (hdone.wellFormed step_of_seedSetting he₁) (fun name => ?_)
      (haccepts _ ?_)
    · rw [hdone.eq_of_seedSetting.1]
      exact hseeded.names name
    · unfold Call.entryCount
      rw [hsplit, List.length_append, List.length_cons]
      omega
  · -- There is no rule yet that a draft could be written to.
    intro done draft rest i e₃ hsplit hdone
    have hnone : e₂.store.allRules = [] := by
      unfold Store.allRules
      rw [hsecond.eq_of_seedSetting.2, hfirst.eq_of_seedCategory.2, hempty]
      exact List.mergeSort_nil
    have hactor : config.engine.seedActor = e₃.config.seedActor := by
      rw [hdone.config_eq (step_of_seedRule _), hsecond.config_eq step_of_seedSetting,
        hfirst.config_eq step_of_seedCategory, hconfig]
    rw [hnone, hactor]
    refine errorOf_seedRule (hvalid draft ?_) (haccepts _ ?_)
    · rw [hsplit]
      exact List.mem_append_right _ List.mem_cons_self
    · unfold Call.entryCount
      rw [hsplit, List.length_append, List.length_cons]
      omega

/-- **There is an engine where each stage goes well**: the files are loaded, a new engine is made of
the first of them, and it is seeded with the others. -/
theorem ofConfig_eq_ok_iff {files : ConfigFiles} :
    ofConfig files occasion = .ok e ↔ ∃ config e₀ report, Config.load files = .ok config
      ∧ create config.engine = .ok e₀
      ∧ e₀.seed config.settings config.rules occasion = (.ok report, e) := by
  unfold ofConfig
  simp only [bind_eq_ok_iff]
  constructor
  · rintro ⟨config, hload, e₀, hcreate, h⟩
    split at h
    · next report e' hseed =>
      cases h
      exact ⟨config, e₀, report, hload, hcreate, hseed⟩
    · cases h
  · rintro ⟨config, e₀, report, hload, hcreate, hseed⟩
    refine ⟨config, hload, e₀, hcreate, ?_⟩
    rw [hseed]
    rfl

/-- **A new engine that is seeded holds what the files say**, and nothing else: it was tuned by the
first of them, it was empty, and its log had no records. This needs that no two rows are given one
identifier, or else one would take the place of the other. -/
theorem holdsSeed_of_create {config : Config} (h : Engine.create config.engine = .ok e)
    (hids : (drawn occasion (Call.entryCount config.settings config.rules)).Nodup)
    {report : SeedReport}
    (hseed : e.seed config.settings config.rules occasion = (.ok report, e')) :
    e'.config = config.engine ∧ e'.HoldsSeed {} config.settings config.rules := by
  obtain ⟨he, hunused⟩ := unused_of_create h
  obtain ⟨-, hnew⟩ := create_eq_ok_iff.1 h
  have hempty : e.store = .empty := by rw [hnew]; rfl
  have hlog : e.log = {} := by rw [hnew]
  obtain ⟨a, b, c, hfirst, hsecond, hthird, rfl⟩ := seed_eq_ok_iff.1 hseed
  have hstages : e.Stages occasion config.settings config.rules report a b c :=
    ⟨he, hfirst, hsecond, hthird⟩
  have hconfig : c.config = config.engine := by
    rw [hthird.config_eq (step_of_seedRule _), hsecond.config_eq step_of_seedSetting,
      hfirst.config_eq step_of_seedCategory, hnew]
  obtain ⟨hactive, hplaces, hdescribed, hnames, hdrafts, htold⟩ :=
    hstages.holdsSeed (.of_nodup hids fun _ _ => hunused _) hempty
  rw [hlog] at htold
  exact ⟨hconfig, hactive, hplaces, hdescribed, hnames, hdrafts, htold⟩

end Engine

/-! ## What has been looked at before

A fault of a configuration is never a complaint about weights or about a rule, although the same
error type has both. The problems are therefore divided into those of definitions, which loading
reports, and the others. -/

/-- **Whether a problem is one of weights or of a rule**, found before any use of them. -/
def Problem.isOfDefinition : Problem → Bool
  | .weights .. | .operand .. | .nestedList _ | .textField .. | .blankRuleName | .noActions
  | .zeroDivisor | .negativePercentage _ | .negativeFixedPrice _ | .closedWindow _ => true
  | _ => false

section Definitions

variable {problem : Problem}

/-- Weights are refused with a problem of weights. -/
theorem Weights.isOfDefinition_of_validate {w : Weights} (h : w.validate = .error problem) :
    problem.isOfDefinition = true := by
  unfold validate at h
  split at h <;> cases h
  rfl

/-- A condition is refused with a problem of operands or fields. -/
theorem Condition.isOfDefinition_of_validate {c : Condition} (h : c.validate = .error problem) :
    problem.isOfDefinition = true := by
  unfold validate at h
  repeat' split at h
  all_goals cases h
  all_goals rfl

/-- An action is refused with a problem of its number. -/
theorem Action.isOfDefinition_of_validate {a : Action} (h : a.validate = .error problem) :
    problem.isOfDefinition = true := by
  unfold validate at h
  repeat' split at h
  all_goals cases h
  all_goals rfl

/-- **A draft is refused with a problem of its definition**, be it its name, its conditions, its
actions or its window. -/
theorem Draft.isOfDefinition_of_validate {d : Draft} (h : d.validate = .error problem) :
    problem.isOfDefinition = true := by
  unfold validate at h
  cases hname : Text.isBlank d.name with
  | true =>
    rw [hname] at h
    cases h
    rfl
  | false =>
    cases hactions : d.actions.isEmpty with
    | true =>
      rw [hname, hactions] at h
      cases h
      rfl
    | false =>
      simp only [hname, hactions, Bool.false_eq_true, if_false, bind_eq_error_iff] at h
      obtain h | ⟨-, -, h | ⟨-, -, h⟩⟩ := h
      · obtain ⟨c, -, hc⟩ := exists_of_forM_eq_error h
        exact c.isOfDefinition_of_validate hc
      · obtain ⟨a, -, ha⟩ := exists_of_forM_eq_error h
        exact a.isOfDefinition_of_validate ha
      · unfold validateWindow at h
        repeat' split at h
        all_goals cases h
        rfl

end Definitions

namespace Config

variable {files : ConfigFiles} {c : Config}

/-- **What is loaded has valid weights and valid rules**, which is why a seed has nothing to say
about either. -/
theorem valid_of_load (h : load files = .ok c) :
    c.engine.weights.validate = .ok () ∧ ∀ draft ∈ c.rules.rules, draft.validate = .ok () := by
  unfold load at h
  simp only [bind_eq_ok_iff, ofCheck_eq_ok_iff] at h
  obtain ⟨engine, -, _, hweights, settings, -, rules, -, _, hrules, h⟩ := h
  cases h
  exact ⟨hweights, fun draft hdraft => ofCheck_eq_ok_iff.1 (forM_eq_ok_iff.1 hrules draft hdraft)⟩

/-- **No fault is one of weights or of a rule**, as can be seen from the list of what
can be wrong. -/
theorem isOfDefinition_of_mem_faults {problem : Problem} (h : .invalid problem ∈ c.faults) :
    problem.isOfDefinition = false := by
  have hblank {text : String} {p : Problem} (hp : p.isOfDefinition = false)
      (h : blankFault? text p = some (.invalid problem)) : problem.isOfDefinition = false := by
    unfold blankFault? at h
    split at h <;> cases h
    exact hp
  unfold faults at h
  simp only [List.mem_append, List.mem_filterMap] at h
  obtain (⟨x, -, h⟩ | ⟨x, -, h⟩) | ⟨-, -, h⟩ := h
  · exact hblank rfl h
  · unfold Seed.SettingEntry.fault? Seed.SettingEntry.valueFault?
      Seed.SettingEntry.categoryFault? at h
    simp only [Option.or_eq_some_iff, Option.map_eq_some_iff] at h
    obtain h | ⟨-, ⟨_, -, h⟩ | ⟨-, h | ⟨-, h⟩⟩⟩ := h
    · split at h <;> cases h
      rfl
    · cases h
    · exact hblank rfl h
    · exact hblank rfl h
  · exact hblank rfl h

end Config

/-- **An engine made from files.** Let the three files be loaded, let the categories be given
identifiers that differ, and let the log accept records, as that of a new engine does. Then there
is an engine exactly if the configuration can be seeded: every category has a name, every setting
has a key, a value of its type and, if it names a category, one that the file declares, and there
is an actor or nothing to be written in the actor's name. Otherwise the error is the first fault
of the configuration; and whatever it is, it is none that weights or a rule can have.

The engine, if there is one, is a new engine of this configuration that was seeded with its files.
It holds what they say, and nothing else, if settings and rules are given identifiers of their own
as well. -/
theorem ofConfig_of_load {files : ConfigFiles} {config : Config}
    (h : Config.load files = .ok config) {occasion : Nat → Occasion}
    (hids : (Engine.drawn occasion config.settings.categories.length).Nodup)
    (haccepts : ∀ i < Call.entryCount config.settings config.rules, (occasion i).refusal = none) :
    ((∃ e, Engine.ofConfig files occasion = .ok e) ↔ config.IsSeedable)
      ∧ (∀ error, Engine.ofConfig files occasion = .error error
        ↔ config.faults.head? = some error)
      ∧ (∀ problem, Engine.ofConfig files occasion = .error (.invalid problem) →
        ∀ (w : Weights) (draft : Draft),
          w.validate ≠ .error problem ∧ draft.validate ≠ .error problem)
      ∧ ∀ e, Engine.ofConfig files occasion = .ok e →
        (∃ e₀ report, Engine.create config.engine = .ok e₀
          ∧ e₀.seed config.settings config.rules occasion = (.ok report, e))
        ∧ ((Engine.drawn occasion (Call.entryCount config.settings config.rules)).Nodup →
          e.config = config.engine ∧ e.HoldsSeed {} config.settings config.rules) := by
  obtain ⟨hweights, hvalid⟩ := Config.valid_of_load h
  obtain ⟨e, he⟩ : ∃ e, Engine.create config.engine = .ok e :=
    errorOf_eq_none_iff.1 (by
      unfold Engine.create
      rw [errorOf_bind_of_ok (ofCheck_eq_ok_iff.2 hweights)]
      rfl)
  have hfault : errorOf (Engine.ofConfig files occasion) = config.faults.head? := by
    rw [← Engine.errorOf_seed_of_create he hvalid hids haccepts]
    unfold Engine.ofConfig
    rw [errorOf_bind_of_ok h, errorOf_bind_of_ok he]
    obtain ⟨result, e'⟩ := e.seed config.settings config.rules occasion
    cases result <;> rfl
  refine ⟨?_, fun error => ?_, fun problem herror w draft => ?_, fun e' he' => ?_⟩
  · rw [← errorOf_eq_none_iff, hfault, List.head?_eq_none_iff, Config.faults_eq_nil_iff]
  · rw [← errorOf_eq_some_iff, hfault]
  · have hmem : .invalid problem ∈ config.faults := by
      rw [← errorOf_eq_some_iff, hfault] at herror
      exact List.mem_of_head? herror
    have hother := Config.isOfDefinition_of_mem_faults hmem
    refine ⟨fun hw => ?_, fun hdraft => ?_⟩
    · exact absurd (hother.symm.trans (Weights.isOfDefinition_of_validate hw)) nofun
    · exact absurd (hother.symm.trans (Draft.isOfDefinition_of_validate hdraft)) nofun
  · obtain ⟨loaded, e₀, report, hload, hcreate, hseed⟩ := Engine.ofConfig_eq_ok_iff.1 he'
    obtain rfl : config = loaded := Except.ok.inj (h.symm.trans hload)
    exact ⟨⟨e₀, report, hcreate, hseed⟩, fun hall => Engine.holdsSeed_of_create hcreate hall hseed⟩

/-- Files with one category and one setting, which is filed under a category: under that of the
file, or under one that the file does not declare. -/
def ConfigFiles.filedUnder (category : String) : ConfigFiles where
  engine := some "seed_actor: clerk\n"
  settings := some ("categories:\n- name: fees\nsettings:\n"
    ++ "- key: a\n  value: x\n  data_type: string\n  category: " ++ category ++ "\n")
  rules := some "rules: []\n"

/-- Under the category of the file there is an engine, which holds what the files say; and under
another one there is not. -/
theorem ofConfig_of_load_filed :
    (∃ config e, Config.load (.filedUnder "fees") = .ok config
        ∧ Engine.ofConfig (.filedUnder "fees") Occasion.number = .ok e
        ∧ e.HoldsSeed {} config.settings config.rules)
      ∧ ∃ config error, Config.load (.filedUnder "taxes") = .ok config
        ∧ Engine.ofConfig (.filedUnder "taxes") Occasion.number = .error error
        ∧ error.message = "Category not found: taxes" := by
  have hloaded (files : ConfigFiles) (faults : List String)
      (h : (Config.load files).toOption.map (fun c =>
        (Call.entryCount c.settings c.rules, c.faults.map Error.message)) = some (2, faults)) :
      ∃ config, Config.load files = .ok config
        ∧ (Engine.drawn Occasion.number (Call.entryCount config.settings config.rules)).Nodup
        ∧ (Engine.drawn Occasion.number config.settings.categories.length).Nodup
        ∧ config.faults.map Error.message = faults := by
    cases hload : Config.load files with
    | error error =>
      rw [hload] at h
      cases h
    | ok config =>
      rw [hload] at h
      obtain ⟨hcount, hfaults⟩ := Prod.mk.inj (Option.some.inj h)
      have hall : (Engine.drawn Occasion.number
          (Call.entryCount config.settings config.rules)).Nodup := by
        rw [hcount]
        decide
      refine ⟨config, rfl, hall, hall.sublist (Engine.drawn_sublist _ ?_), hfaults⟩
      unfold Call.entryCount
      omega
  constructor
  · obtain ⟨config, hload, hall, hids, hfaults⟩ :=
      hloaded (.filedUnder "fees") [] (by decide +kernel)
    obtain ⟨hiff, -, -, hengine⟩ := ofConfig_of_load hload hids fun _ _ => rfl
    obtain ⟨e, he⟩ := hiff.2 (Config.faults_eq_nil_iff.1 (List.map_eq_nil_iff.1 hfaults))
    exact ⟨config, e, hload, he, ((hengine e he).2 hall).2⟩
  · obtain ⟨config, hload, -, hids, hfaults⟩ := hloaded (.filedUnder "taxes")
      ["Category not found: taxes"] (by decide +kernel)
    obtain ⟨error, hfault, hmessage⟩ := List.map_eq_singleton_iff.1 hfaults
    refine ⟨config, error, hload, ?_, hmessage⟩
    exact ((ofConfig_of_load hload hids fun _ _ => rfl).2.1 error).2 (by rw [hfault]; rfl)

end Tariff
