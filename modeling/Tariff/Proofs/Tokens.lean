import Tariff.Proofs.Lasting
import Tariff.Proofs.Recency

/-!
# What a generation tells

A reader takes the generation of a key, and has its answer kept only while that is the
current one. How often the entries of the key were dropped by name, and how often everything
was dropped, are counted apart, and the generation is the sum of both, so that it does not
say which of them it was. It does not have to: no use of a cache makes either count smaller
(`count_generation_after`), and so the sum is back at what it was only if neither has grown
in between. A token of a key is good exactly as long as nobody invalidates the key or clears
the cache (`insert?_run_iff`), whatever else is done meanwhile, and with however many tokens.

The counts are numbers without a bound here. Counts of 64 bits come around, and the sum may
be the same again after `2 ^ 64` invalidations. `insertByWord?` keeps answers by such a sum,
and with fewer invalidations it keeps the same ones.
-/

namespace Tariff

namespace Cache

/-! ## Uses of a cache

All that can be done with a cache is listed here, and a run is any list of it. Nothing is asked
about who does it. -/

/-- **What is asked of a cache.** Taking a generation is a use as well, though it changes nothing,
so that a run can have as many tokens in it as there may be. -/
inductive Use where
  | find (key : String) (scope : Scope) (t : Instant)
  /-- The generation of a key is taken. -/
  | tag (key : String)
  /-- An answer is to be kept, which was read under a generation of its key. -/
  | insert (key : String) (scope : Scope) (value : Option Value) (g : Generation) (t : Instant)
  | invalidate (key : String)
  | clear
  | evictExpired (t : Instant)

/-- Whether a use drops entries by name or all of them, and starts a generation. -/
def Use.isInvalidation : Use → Bool
  | .invalidate _ | .clear => true
  | _ => false

/-- Whether a use starts a generation of a key. Dropping expired entries does not, and neither does
making room. -/
def Use.renews (key : String) : Use → Bool
  | .invalidate k => k = key
  | .clear => true
  | _ => false

/-- The cache after a use. An answer that is refused leaves it as it was. -/
def after (c : Cache) : Use → Cache
  | .find .. | .tag _ => c
  | .insert key scope value g t => (c.insert? key scope value g t).getD c
  | .invalidate key => c.invalidate key
  | .clear => c.clear
  | .evictExpired t => c.evictExpired t

/-- **The cache after a run.** -/
def run (c : Cache) (uses : List Use) : Cache := uses.foldl after c

/-- **A new cache**, with a lifetime in nanoseconds and room for so many entries. There is room for
one at least, whatever is asked for. -/
def empty (lifetime capacity : Nat) : Cache :=
  { ofSeconds 0 with lifetime }.withCapacity capacity

variable {c c' : Cache} {key : String} {scope : Scope} {value : Option Value} {g : Generation}
  {t : Instant} {uses : List Use}

/-- **An answer is kept under the current generation** of its key. -/
theorem isSome_insert?_iff :
    (c.insert? key scope value g t).isSome = true ↔ c.generation key = g := by
  unfold insert?
  split
  · next h => exact iff_of_true rfl h
  · next h => exact iff_of_false Bool.false_ne_true h

/-- **What is kept is an entry**, for which room may have been made. -/
theorem eq_put_of_insert? (h : c.insert? key scope value g t = some c') :
    c' = (if (c.entry? key scope).isSome then c else c.makeRoom t).put ⟨key, scope, value, t⟩ := by
  obtain rfl : c.generation key = g := isSome_insert?_iff.1 (Option.isSome_of_eq_some h)
  rw [insert?_generation] at h
  exact (Option.some.inj h).symm

/-- Keeping an answer does not change how long answers are good. -/
theorem lifetime_of_insert? (h : c.insert? key scope value g t = some c') :
    c'.lifetime = c.lifetime := by
  obtain rfl := eq_put_of_insert? h
  show (if (c.entry? key scope).isSome then c else c.makeRoom t).lifetime = c.lifetime
  split
  · rfl
  · exact lifetime_makeRoom

/-- **An answer that is kept is found** until it expires. -/
theorem find?_of_insert? (h : c.insert? key scope value g t = some c') (t' : Instant) :
    c'.find? key scope t' = if c'.isFresh t' ⟨key, scope, value, t⟩ then some value else none := by
  obtain rfl := eq_put_of_insert? h
  rw [find?_put, if_pos ⟨rfl, rfl⟩]
  rfl

theorem lifetime_after (c : Cache) (u : Use) : (c.after u).lifetime = c.lifetime := by
  cases u with
  | insert key scope value g t =>
    show ((c.insert? key scope value g t).getD c).lifetime = c.lifetime
    cases h : c.insert? key scope value g t with
    | none => rfl
    | some c' => exact lifetime_of_insert? h
  | _ => rfl

theorem lifetime_run (c : Cache) (uses : List Use) : (c.run uses).lifetime = c.lifetime := by
  induction uses generalizing c with
  | nil => rfl
  | cons u rest ih => exact (ih (c.after u)).trans (c.lifetime_after u)

/-! ## Generations

Each use either starts a generation of the key or leaves it. So the number of the generation counts
the uses that have started one. -/

/-- Generations are their counts. -/
theorem Generation.eq_iff {g g' : Generation} : g = g' ↔ g.count = g'.count := by
  cases g
  cases g'
  exact Generation.mk.injEq _ _ ▸ Iff.rfl

/-- **No use makes a generation smaller**, and those that start one make it greater. Both counts are
added here, as a reader does who takes the generation. -/
theorem count_generation_after (c : Cache) (u : Use) (key : String) :
    ((c.after u).generation key).count
      = (c.generation key).count + if u.renews key then 1 else 0 := by
  cases u with
  | find | tag | evictExpired => rfl
  | insert key' scope value g t =>
    show (((c.insert? key' scope value g t).getD c).generation key).count = _
    cases h : c.insert? key' scope value g t with
    | none => rfl
    | some c' => exact congrArg Generation.count ((generation_of_insert? h).2 key)
  | invalidate key' =>
    have hsame : key = key' ↔ key' = key := eq_comm
    simp only [after, Use.renews, count_generation_invalidate, hsame, decide_eq_true_eq]
  | clear => exact c.count_generation_clear key

/-- **A run counts the uses that start a generation.** -/
theorem count_generation_run (c : Cache) (uses : List Use) (key : String) :
    ((c.run uses).generation key).count
      = (c.generation key).count + uses.countP fun u => u.renews key := by
  induction uses generalizing c with
  | nil => rfl
  | cons u rest ih =>
    show (((c.after u).run rest).generation key).count = _
    rw [ih, count_generation_after, List.countP_cons, Nat.add_assoc, Nat.add_comm (ite _ _ _)]

/-- The uses that start none are all but two. -/
theorem Use.renews_eq_false_iff {u : Use} :
    u.renews key = false ↔ u ≠ .invalidate key ∧ u ≠ .clear := by
  cases u with
  | invalidate k => simp [renews]
  | _ => simp [renews]

/-- **A generation is still current** where nothing has started another one. Since the sum never
becomes smaller, it cannot come back to what it was. -/
theorem generation_run_eq_iff : (c.run uses).generation key = c.generation key
    ↔ Use.invalidate key ∉ uses ∧ Use.clear ∉ uses := by
  have hnone : (uses.countP fun u => u.renews key) = 0
      ↔ Use.invalidate key ∉ uses ∧ Use.clear ∉ uses := by
    rw [List.countP_eq_zero]
    simp only [Bool.not_eq_true, Use.renews_eq_false_iff, ne_eq, forall_and]
    exact and_congr ⟨fun h hu => h _ hu rfl, fun h u hu heq => h (heq ▸ hu)⟩
      ⟨fun h hu => h _ hu rfl, fun h u hu heq => h (heq ▸ hu)⟩
  rw [← hnone, Generation.eq_iff, count_generation_run, Nat.add_eq_left]

/-! ## Generations of 64 bits

This is where the numbers meet the machine. Two counts that are different may have one word, if
there are enough uses between them. -/

/-- **The generation of a key as a word**, where both counts have 64 bits and come around. -/
def word (c : Cache) (key : String) : UInt64 :=
  .ofNat c.clearings + .ofNat (c.invalidationsOf key)

/-- **Keeps an answer that was read under a word** of its key. This is what is done with counts of
64 bits: only the words are compared. -/
def insertByWord? (c : Cache) (key : String) (scope : Scope) (value : Option Value)
    (w : UInt64) (t : Instant) : Option Cache :=
  if c.word key = w then c.insert? key scope value (c.generation key) t else none

/-- Below `2 ^ 64` the word is the count. -/
theorem toNat_word (h : (c.generation key).count < 2 ^ 64) :
    (c.word key).toNat = (c.generation key).count := by
  unfold word
  rw [← UInt64.ofNat_add]
  exact UInt64.toNat_ofNat_of_lt h

/-- A generation of a run is one of fewer than there are words, if so few uses start any. -/
theorem count_generation_lt {lifetime capacity : Nat} {n : Nat}
    (h : uses.countP Use.isInvalidation < n) (key : String) :
    (((empty lifetime capacity).run uses).generation key).count < n := by
  rw [count_generation_run]
  have hle : (uses.countP fun u => u.renews key) ≤ uses.countP Use.isInvalidation := by
    refine List.countP_mono_left fun u _ hu => ?_
    cases u with
    | invalidate | clear => rfl
    | _ => cases hu
  exact Nat.lt_of_le_of_lt (Nat.zero_add _ ▸ hle) h

/-- **Words tell generations apart** where neither comes around. -/
theorem insertByWord?_eq {c₀ : Cache} (h : (c.generation key).count < 2 ^ 64)
    (h₀ : (c₀.generation key).count < 2 ^ 64) :
    c.insertByWord? key scope value (c₀.word key) t
      = c.insert? key scope value (c₀.generation key) t := by
  have hword : c.word key = c₀.word key ↔ c.generation key = c₀.generation key := by
    rw [← UInt64.toNat_inj, toNat_word h, toNat_word h₀, Generation.eq_iff]
  unfold insertByWord?
  split
  · next heq => rw [hword.1 heq]
  · next hne =>
    unfold insert?
    rw [if_neg fun heq => hne (hword.2 heq)]

/-- **A token is good as long as nothing invalidates its key, and no longer.** In a run with
fewer than `2 ^ 64` invalidations, an answer read under a token of its key is kept if and only if
since then the key has not been invalidated and the cache not cleared, by tokens without a bound
and by words. An answer that is kept is found until it expires, and one that is refused leaves
the cache as it is.

In the run before the token there may be any uses, and after it as well. Other tokens may be taken
and used, of this key and of others, and other answers kept. -/
theorem insert?_run_iff {lifetime capacity : Nat} {before since : List Use}
    (hcount : (before ++ since).countP Use.isInvalidation < 2 ^ 64)
    {c c' : Cache} (hc : c = (empty lifetime capacity).run before) (hc' : c' = c.run since)
    (key : String) (scope : Scope) (value : Option Value) (t : Instant) :
    ((c'.insert? key scope value (c.generation key) t).isSome = true
        ↔ Use.invalidate key ∉ since ∧ Use.clear ∉ since)
      ∧ (∀ c'', c'.insert? key scope value (c.generation key) t = some c'' →
        ∀ t', c''.find? key scope t'
          = if (t'.nanosSince t).toNat < lifetime then some value else none)
      ∧ (c'.insert? key scope value (c.generation key) t = none →
        c'.after (.insert key scope value (c.generation key) t) = c')
      ∧ c'.insertByWord? key scope value (c.word key) t
        = c'.insert? key scope value (c.generation key) t := by
  have hrun : c' = (empty lifetime capacity).run (before ++ since) := by
    rw [hc', hc]
    exact List.foldl_append.symm
  have hbefore : before.countP Use.isInvalidation < 2 ^ 64 := by
    rw [List.countP_append] at hcount
    omega
  refine ⟨?_, fun c'' h t' => ?_, fun h => ?_, insertByWord?_eq ?_ ?_⟩
  · rw [isSome_insert?_iff, hc', generation_run_eq_iff]
  · have hlifetime : c''.lifetime = lifetime := by
      rw [lifetime_of_insert? h, hrun, lifetime_run]
      rfl
    rw [find?_of_insert? h, isFresh, hlifetime]
    simp only [decide_eq_true_eq]
  · show (c'.insert? key scope value (c.generation key) t).getD c' = c'
    rw [h]
    rfl
  · exact hrun ▸ count_generation_lt hcount key
  · exact hc ▸ count_generation_lt hbefore key

/-- A reader takes a token of one key. Meanwhile another key is invalidated, expired entries are
dropped and another reader has its answer kept, and the token is good. After its own key has been
invalidated it is not, though the cache had been cleared before it was taken. -/
theorem insert?_run_iff_two_keys :
    ∃ c c' : Cache, c = (empty 1000 10).run [.invalidate "a", .clear]
      ∧ c' = c.run [.invalidate "b", .evictExpired ⟨1⟩, .insert "a" {} none (c.generation "a") ⟨2⟩]
      ∧ (c'.insert? "a" {} (some (.boolean true)) (c.generation "a") ⟨3⟩).isSome = true
      ∧ ((c'.run [.invalidate "a"]).insert? "a" {} (some (.boolean true)) (c.generation "a")
        ⟨3⟩).isSome = false := by
  obtain ⟨hgood, -⟩ := @insert?_run_iff 1000 10 [.invalidate "a", .clear]
    [.invalidate "b", .evictExpired ⟨1⟩, .insert "a" {} none ⟨2⟩ ⟨2⟩]
    (by decide) _ _ rfl rfl "a" {} (some (.boolean true)) ⟨3⟩
  obtain ⟨hstale, -⟩ := @insert?_run_iff 1000 10 [.invalidate "a", .clear]
    [.invalidate "b", .evictExpired ⟨1⟩, .insert "a" {} none ⟨2⟩ ⟨2⟩, .invalidate "a"]
    (by decide) _ _ rfl rfl "a" {} (some (.boolean true)) ⟨3⟩
  refine ⟨_, _, rfl, rfl, hgood.2 ?_, ?_⟩
  · simp
  · exact Bool.eq_false_iff.2 fun h => absurd (hstale.1 h).1 (by simp)

end Cache

end Tariff
