import Tariff.Proofs.Tokens

/-!
# How much a cache holds, and what it drops

A cache has room for so many entries. When an answer comes for a pair of key and dimensions
that has none, and the room is used up, the expired entries go, and if there are none of
these the oldest entry goes. An answer for a pair that has an entry takes its place, and
nothing goes.

What is oldest is told from what was put in (`history`). Every entry is the last that was put
in for its pair, and entries are in the order in which they were put in (`Records`). This is
true of a new cache, and kept by all uses: some only drop entries, and an entry that is put in
is the last of the history as well. If the clock never stands still between two of them, the
first entry is therefore the one whose pair has waited longest for an answer, and it is the
only one that has to go (`run_drops_least`).
-/

namespace Tariff

namespace Cache

variable {c c' : Cache} {key : String} {scope : Scope} {value : Option Value} {g : Generation}
  {t : Instant} {uses : List Use} {past : List Entry}

/-! ## What was put in

The history has an entry for each answer that the cache has accepted, also for those that it has
dropped since. The cache itself does not keep it; it is counted along for the proof. -/

/-- **The entry that a use puts in**, if it does. An answer that was computed before its key was
invalidated is refused, and then nothing is put in. -/
def putIn (c : Cache) : Use → Option Entry
  | .insert key scope value g t =>
    if c.generation key = g then some ⟨key, scope, value, t⟩ else none
  | _ => none

/-- **The entries that a run puts in**, one after the other. The history never loses an entry,
whatever the cache drops; it is what there is to say which entry of the cache is the oldest. -/
def history (c : Cache) : List Use → List Entry
  | [] => []
  | u :: rest => (c.putIn u).toList ++ (c.after u).history rest

/-- The last entry that was put in for a key and dimensions. -/
def latest? (past : List Entry) (key : String) (scope : Scope) : Option Entry :=
  past.reverse.find? fun e => e.isFor key scope

/-- **The entries are the last for their pairs**, in the order in which they were put in, and there
is room for them.

That the entries are a sublist of the history, and not only among it, is what the argument lives on:
it fixes their order, so that the first entry has waited longest. That each is the last for its pair
says that an answer which was put in again has moved to the end. -/
structure Records (c : Cache) (past : List Entry) : Prop where
  size_le : c.size ≤ c.capacity
  sublist : c.entries.Sublist past
  latest : ∀ e ∈ c.entries, latest? past e.key e.scope = some e

/-! ## Making room

Expired entries go before the oldest one does, and it goes only if this has made no room. So there
are three cases, and in each at most one entry that could have been served is lost. -/

/-- Making room drops entries, and nothing else. -/
theorem sublist_makeRoom (c : Cache) (t : Instant) :
    (c.makeRoom t).entries.Sublist c.entries ∧ (c.makeRoom t).capacity = c.capacity := by
  obtain ⟨entries, heq, hsublist⟩ := c.exists_makeRoom_eq t
  rw [heq]
  exact ⟨hsublist, rfl⟩

/-- **If there is room, or something has expired**, no other entry goes. Expired entries are dropped
first, and if there was one there is room after that. -/
theorem makeRoom_of_not_isFull (hsize : c.size ≤ c.capacity) (h : ¬ c.IsFull t) :
    (c.makeRoom t).size < c.capacity
      ∧ ∀ e ∈ c.entries, c.isFresh t e = true → e ∈ (c.makeRoom t).entries := by
  unfold makeRoom
  split
  · next hroom => exact ⟨hroom, fun e he _ => he⟩
  · next hnone =>
    have hfull : c.capacity ≤ c.size := Nat.not_lt.1 hnone
    have hexpired : (c.evictExpired t).size < c.capacity := by
      refine Nat.lt_of_lt_of_le (List.length_filter_lt_length_iff_exists.2 ?_) hsize
      by_contra hfresh
      simp only [not_exists, not_and, not_not] at hfresh
      exact h ⟨hfull, hfresh⟩
    rw [if_pos (show (c.evictExpired t).size < (c.evictExpired t).capacity from hexpired)]
    exact ⟨hexpired, fun e he hfresh => List.mem_filter.2 ⟨he, hfresh⟩⟩

/-- **Dropping the oldest entry** makes room for another one. The oldest is an entry, so that at
least one goes. -/
theorem size_evictOldest_lt (h : 0 < c.size) : c.evictOldest.size < c.size := by
  unfold evictOldest
  split
  · next hnone =>
    unfold size at h
    rw [oldest?_eq_none_iff.1 hnone] at h
    exact absurd h (Nat.lt_irrefl 0)
  · next o ho =>
    refine List.length_filter_lt_length_iff_exists.2 ⟨o, (oldest?_eq_some ho).1, ?_⟩
    simp [Entry.isFor]

/-- After room was made there is some. For this a cache must have room for one entry at least, which
the constructor sees to. -/
theorem size_makeRoom_lt (hsize : c.size ≤ c.capacity) (t : Instant) :
    (c.makeRoom t).size < c.capacity := by
  by_cases hfull : c.IsFull t
  · rw [makeRoom_of_isFull hfull]
    exact Nat.lt_of_lt_of_le
      (size_evictOldest_lt (Nat.lt_of_lt_of_le c.capacity_pos hfull.1)) hsize
  · exact (makeRoom_of_not_isFull hsize hfull).1

/-! ## Every run

`Records` is an invariant: a new cache has it with the empty history, and each use keeps it, the
history growing by what the use puts in. -/

namespace Records

/-- Dropping entries keeps it. The entries that are left are still in their order, and the last for
their pairs, as the history stays the same. -/
theorem drop (h : c.Records past) (hentries : c'.entries.Sublist c.entries)
    (hcapacity : c'.capacity = c.capacity) : c'.Records past where
  size_le := hcapacity ▸ Nat.le_trans hentries.length_le h.size_le
  sublist := hentries.trans h.sublist
  latest e he := h.latest e (hentries.subset he)

/-- **An entry that is put in** takes the place of the one for its pair, or there is room.

It is the last entry of the cache then and the last of the history, and thereby the last for its
pair. An entry for another pair is the last for that pair as before. -/
theorem put (h : c.Records past) (entry : Entry)
    (hroom : (c.entry? entry.key entry.scope).isSome = true ∨ c.size < c.capacity) :
    (c.put entry).Records (past ++ [entry]) where
  size_le := by
    rcases hroom with hsome | hlt
    -- The entry of the pair goes, so that there is room for the new one.
    · obtain ⟨e, he⟩ := Option.isSome_iff_exists.1 hsome
      obtain ⟨hmem, hkey, hscope⟩ := entry?_eq_some he
      have hfewer : (c.entries.filter fun e => !e.isFor entry.key entry.scope).length
          < c.entries.length := by
        refine List.length_filter_lt_length_iff_exists.2 ⟨e, hmem, ?_⟩
        rw [Entry.isFor_iff.2 ⟨hkey, hscope⟩]
        exact Bool.false_ne_true
      show ((c.entries.filter fun e => !e.isFor entry.key entry.scope) ++ [entry]).length ≤ _
      rw [List.length_append]
      exact Nat.le_trans hfewer h.size_le
    · exact Nat.le_trans (size_put_le entry) hlt
  sublist := (List.filter_sublist.trans h.sublist).append (List.Sublist.refl _)
  latest e he := by
    unfold latest?
    rw [List.reverse_append, List.reverse_singleton, List.singleton_append, List.find?_cons]
    -- The new entry is the last of the history. It is found first for its pair, and passed over for
    -- any other one.
    rcases List.mem_append.1 he with hold | hnew
    · -- What was put in is for another pair.
      obtain ⟨hmem, hother⟩ := List.mem_filter.1 hold
      have hfor : entry.isFor e.key e.scope = false := by
        refine Bool.eq_false_iff.2 fun hsame => ?_
        obtain ⟨hkey, hscope⟩ := Entry.isFor_iff.1 hsame
        rw [hkey, hscope, Entry.isFor_iff.2 ⟨rfl, rfl⟩] at hother
        cases hother
      rw [hfor]
      exact h.latest e hmem
    · rw [List.mem_singleton.1 hnew, Entry.isFor_iff.2 ⟨rfl, rfl⟩]

/-- **Every use** leaves it so, with what it puts in added to the history. Only an insertion puts
anything in. The other uses read, or drop entries. -/
theorem after (h : c.Records past) (u : Use) :
    (c.after u).Records (past ++ (c.putIn u).toList) := by
  cases u with
  -- These only read.
  | find | tag =>
    simp only [putIn, Option.toList_none, List.append_nil]
    exact h
  -- These drop entries.
  | invalidate | evictExpired =>
    simp only [putIn, Option.toList_none, List.append_nil]
    exact h.drop List.filter_sublist rfl
  | clear =>
    simp only [putIn, Option.toList_none, List.append_nil]
    exact h.drop (List.nil_sublist _) rfl
  | insert key scope value g t =>
    show ((c.insert? key scope value g t).getD c).Records
      (past ++ (if c.generation key = g then some (Entry.mk key scope value t) else none).toList)
    cases hinsert : c.insert? key scope value g t with
    | none =>
      -- An answer that is refused leaves cache and history as they were.
      have hstale : c.generation key ≠ g := fun heq => by
        have hsome : (c.insert? key scope value g t).isSome = true := isSome_insert?_iff.2 heq
        rw [hinsert] at hsome
        cases hsome
      rw [if_neg hstale, Option.toList_none, List.append_nil]
      exact h
    | some c' =>
      rw [if_pos (isSome_insert?_iff.1 (Option.isSome_of_eq_some hinsert)),
        eq_put_of_insert? hinsert]
      split
      · next hsome => exact h.put _ (.inl hsome)
      · obtain ⟨hentries, hcapacity⟩ := c.sublist_makeRoom t
        refine (h.drop hentries hcapacity).put _ (.inr ?_)
        rw [hcapacity]
        exact size_makeRoom_lt h.size_le t

/-- **Every run** leaves it so, by induction on the uses. -/
theorem run (h : c.Records past) (uses : List Use) :
    (c.run uses).Records (past ++ c.history uses) := by
  induction uses generalizing c past with
  | nil =>
    rw [history, List.append_nil]
    exact h
  | cons u rest ih =>
    show ((c.after u).run rest).Records (past ++ (_ ++ _))
    rw [← List.append_assoc]
    exact ih (h.after u)

end Records

/-- No use changes how much there is room for. -/
theorem capacity_after (c : Cache) (u : Use) : (c.after u).capacity = c.capacity := by
  cases u with
  | insert key scope value g t =>
    show ((c.insert? key scope value g t).getD c).capacity = c.capacity
    cases h : c.insert? key scope value g t with
    | none => rfl
    | some c' =>
      obtain rfl := eq_put_of_insert? h
      show (if (c.entry? key scope).isSome then c else c.makeRoom t).capacity = c.capacity
      split
      · rfl
      · exact (c.sublist_makeRoom t).2
  | _ => rfl

theorem capacity_run (c : Cache) (uses : List Use) : (c.run uses).capacity = c.capacity := by
  induction uses generalizing c with
  | nil => rfl
  | cons u rest ih => exact (ih (c.after u)).trans (c.capacity_after u)

/-- A new cache has put nothing in. -/
theorem records_empty (lifetime capacity : Nat) : (empty lifetime capacity).Records [] where
  size_le := Nat.zero_le _
  sublist := List.Sublist.refl []
  latest := nofun

/-! ## What an answer leaves

Here the invariant is used: an entry of the cache is the only one for its pair, so to be in the
cache is to be served. -/

/-- **An entry is answered with** until it expires: whoever asks for its pair, at any instant, is
given its value as long as it is fresh, and nothing after that. -/
def Answers (c : Cache) (e : Entry) : Prop :=
  ∀ t, c.find? e.key e.scope t = if c.isFresh t e then some e.value else none

/-- This is so if it is the entry that is found for its pair. -/
theorem answers_of_entry?_eq_some {e : Entry} (h : c.entry? e.key e.scope = some e) :
    c.Answers e := by
  intro t
  unfold find?
  rw [h]

/-- **Every entry is the one that is found** for its pair. If another entry was found first, both
would be the last that was put in for the pair. -/
theorem Records.entry?_eq (h : c.Records past) {e : Entry} (he : e ∈ c.entries) :
    c.entry? e.key e.scope = some e := by
  have hfor : e.isFor e.key e.scope = true := Entry.isFor_iff.2 ⟨rfl, rfl⟩
  have hsome : (c.entry? e.key e.scope).isSome = true := List.find?_isSome.2 ⟨e, he, hfor⟩
  obtain ⟨e', he'⟩ := Option.isSome_iff_exists.1 hsome
  obtain ⟨hmem, hkey, hscope⟩ := entry?_eq_some he'
  -- Both are the last that were put in for the pair.
  have hlatest := h.latest e' hmem
  rw [hkey, hscope, h.latest e he] at hlatest
  exact he'.trans hlatest.symm

/-- An answer that is put in changes nothing for other pairs. -/
theorem entry?_of_insert? (h : c.insert? key scope value g t = some c') {e : Entry}
    (hother : e.isFor key scope = false) : c'.entry? e.key e.scope
      = entry? (if (c.entry? key scope).isSome then c else c.makeRoom t) e.key e.scope := by
  rw [eq_put_of_insert? h, entry?_put]
  exact if_neg fun hsame => Bool.eq_false_iff.1 hother (Entry.isFor_iff.2 hsame)

/-- **No two entries were put in at once** where no two are in the history. So it is of no
importance how the oldest entry is chosen among several of one instant. -/
theorem Records.insertedAt_inj (h : c.Records past)
    (hclock : (past.map Entry.insertedAt).Pairwise (· < ·)) {e e' : Entry} (he : e ∈ c.entries)
    (he' : e' ∈ c.entries) (heq : e.insertedAt = e'.insertedAt) : e = e' := by
  have hincreasing := hclock.sublist (h.sublist.map Entry.insertedAt)
  have hnodup : (c.entries.map Entry.insertedAt).Nodup := hincreasing.imp fun hlt hsame => by
    rw [hsame, Instant.lt_iff] at hlt
    omega
  exact List.inj_on_of_nodup_map hnodup he he' heq

/-- **The oldest entry alone goes** where room has to be made and nothing has expired, and it is
older than every other one.

The entries stand in the order in which they were put in, so that the first of them is the oldest by
the clock. What is dropped is every entry for its pair, and there is only this one. -/
theorem Records.exists_oldest (h : c.Records past)
    (hclock : (past.map Entry.insertedAt).Pairwise (· < ·)) (hsize : 0 < c.size) :
    ∃ oldest ∈ c.entries, c.evictOldest.entry? oldest.key oldest.scope = none
      ∧ ∀ e ∈ c.entries, e ≠ oldest →
        oldest.insertedAt < e.insertedAt ∧ e ∈ c.evictOldest.entries := by
  obtain ⟨o, ho⟩ : ∃ o, oldest? c.entries = some o := Option.ne_none_iff_exists'.1 fun hnone => by
    rw [size, oldest?_eq_none_iff.1 hnone] at hsize
    exact absurd hsize (Nat.lt_irrefl 0)
  obtain ⟨hmem, hle⟩ := oldest?_eq_some ho
  have hentries : c.evictOldest.entries = c.entries.filter fun e => !e.isFor o.key o.scope := by
    unfold evictOldest
    rw [ho]
  refine ⟨o, hmem, ?_, fun e he hne => ⟨?_, ?_⟩⟩
  · unfold entry?
    rw [hentries]
    exact List.find?_eq_none.2 fun e he hfor => by simp [hfor] at he
  · -- The oldest was put in no later than this entry, and not at the same instant.
    have hticks : e.insertedAt.ticks ≠ o.insertedAt.ticks := fun hsame =>
      hne (h.insertedAt_inj hclock he hmem (congrArg Instant.mk hsame))
    have hnot := hle e he
    rw [Instant.le_iff] at hnot
    rw [Instant.lt_iff]
    omega
  · -- Only the oldest entry is for its pair.
    rw [hentries]
    refine List.mem_filter.2 ⟨he, ?_⟩
    cases hfor : e.isFor o.key o.scope with
    | false => rfl
    | true =>
      obtain ⟨hkey, hscope⟩ := Entry.isFor_iff.1 hfor
      have hfound := h.entry?_eq he
      rw [hkey, hscope, h.entry?_eq hmem] at hfound
      exact absurd (Option.some.inj hfound).symm hne

/-- **A cache holds no more than it has room for, and drops as little as it can.** In a run whose
answers are put in one after the other on the clock, there are never more entries than there is
room for, and each of them is answered with and is the last that was put in for its pair. An answer
that is put in is answered with, and takes no other one away that has not expired; only if its pair
has no entry, there is no room and nothing has expired, one other entry goes, and it is the one put
in longest ago.

Without the condition on the clock two entries may be of one instant, and then which of them goes is
a matter of how they happen to be enumerated. -/
theorem run_drops_least {lifetime m : Nat} {uses : List Use} {c : Cache}
    (hc : c = (empty lifetime m).run uses)
    (hclock : (((empty lifetime m).history uses).map Entry.insertedAt).Pairwise (· < ·)) :
    (c.capacity = max m 1 ∧ c.size ≤ c.capacity)
      ∧ (∀ e ∈ c.entries, c.Answers e
        ∧ latest? ((empty lifetime m).history uses) e.key e.scope = some e)
      ∧ ∀ key scope value g t c', c.insert? key scope value g t = some c' →
        c'.Answers ⟨key, scope, value, t⟩
          ∧ (¬ (c.entry? key scope = none ∧ c.IsFull t) → ∀ e ∈ c.entries,
            c.isFresh t e = true → e.isFor key scope = false → c'.Answers e)
          ∧ (c.entry? key scope = none → c.IsFull t → ∃ oldest ∈ c.entries,
            c'.entry? oldest.key oldest.scope = none
              ∧ ∀ e ∈ c.entries, e ≠ oldest →
                oldest.insertedAt < e.insertedAt ∧ c'.Answers e) := by
  have hrecords : c.Records ((empty lifetime m).history uses) := by
    rw [hc]
    exact (records_empty lifetime m).run uses
  have hcapacity : c.capacity = max m 1 := by
    rw [hc, capacity_run]
    exact Nat.max_comm 1 m
  refine ⟨⟨hcapacity, hrecords.size_le⟩,
    fun e he => ⟨answers_of_entry?_eq_some (hrecords.entry?_eq he), hrecords.latest e he⟩,
    fun key scope value g t c' h => ⟨fun t' => find?_of_insert? h t',
      fun hroom e he hfresh hother => answers_of_entry?_eq_some ?_, fun hnew hfull => ?_⟩⟩
  · -- Either the pair has an entry, so that nothing is dropped, or what is dropped has expired.
    rw [entry?_of_insert? h hother]
    cases hentry : c.entry? key scope with
    | some _ => exact hrecords.entry?_eq he
    | none =>
      obtain ⟨hentries, hsame⟩ := c.sublist_makeRoom t
      have hnot : ¬ c.IsFull t := fun hfull => hroom ⟨hentry, hfull⟩
      exact (hrecords.drop hentries hsame).entry?_eq
        ((makeRoom_of_not_isFull hrecords.size_le hnot).2 e he hfresh)
  · -- Room is made by dropping the oldest entry. What is found for another pair after the answer
    -- was put in is what was found after that.
    have hother : ∀ e ∈ c.entries, e.isFor key scope = false := fun e he =>
      Bool.eq_false_iff.2 (List.find?_eq_none.1 hnew e he)
    have hevict : ∀ e ∈ c.entries,
        c'.entry? e.key e.scope = c.evictOldest.entry? e.key e.scope := by
      intro e he
      rw [entry?_of_insert? h (hother e he), hnew, ← makeRoom_of_isFull hfull]
      rfl
    obtain ⟨hentries, hsame⟩ := c.sublist_makeRoom t
    rw [makeRoom_of_isFull hfull] at hentries hsame
    obtain ⟨oldest, hmem, hgone, hkept⟩ := hrecords.exists_oldest hclock
      (Nat.lt_of_lt_of_le c.capacity_pos hfull.1)
    refine ⟨oldest, hmem, (hevict oldest hmem).trans hgone, fun e he hne => ?_⟩
    obtain ⟨hlt, hstays⟩ := hkept e he hne
    refine ⟨hlt, answers_of_entry?_eq_some ((hevict e he).trans ?_)⟩
    exact (hrecords.drop hentries hsame).entry?_eq hstays

/-- There is room for two. The pair that came first is given another answer after the second one has
come, so that it is the second one which goes when a third comes. -/
theorem run_drops_least_refreshed :
    ∃ c c' : Cache, c = (empty 1000 2).run [.insert "a" {} none ⟨0⟩ ⟨1⟩,
        .insert "b" {} none ⟨0⟩ ⟨2⟩, .insert "a" {} (some (.boolean true)) ⟨0⟩ ⟨3⟩]
      ∧ c.insert? "c" {} none ⟨0⟩ ⟨4⟩ = some c'
      ∧ c'.entry? "b" {} = none ∧ c'.Answers ⟨"a", {}, some (.boolean true), ⟨3⟩⟩ := by
  obtain ⟨c, hc⟩ : ∃ c, c = (empty 1000 2).run [.insert "a" {} none ⟨0⟩ ⟨1⟩,
    .insert "b" {} none ⟨0⟩ ⟨2⟩, .insert "a" {} (some (.boolean true)) ⟨0⟩ ⟨3⟩] := ⟨_, rfl⟩
  obtain ⟨-, -, hinsert⟩ := run_drops_least hc (by decide)
  have hentries : c.entries
      = [⟨"b", {}, none, ⟨2⟩⟩, ⟨"a", {}, some (.boolean true), ⟨3⟩⟩] := hc ▸ rfl
  have hnew : c.entry? "c" {} = none := hc ▸ rfl
  have hfull : c.IsFull ⟨4⟩ := hc ▸ ⟨by decide, by decide⟩
  obtain ⟨c', hc'⟩ := c.exists_insert?_generation "c" {} none ⟨4⟩
  have hcurrent : c.generation "c" = ⟨0⟩ := hc ▸ rfl
  rw [hcurrent] at hc'
  obtain ⟨-, -, hevict⟩ := hinsert "c" {} none ⟨0⟩ ⟨4⟩ c' hc'
  obtain ⟨oldest, hmem, hgone, hkept⟩ := hevict hnew hfull
  rw [hentries] at hmem hkept
  simp only [List.mem_cons, List.not_mem_nil, or_false] at hmem
  refine ⟨c, c', hc, hc', ?_⟩
  rcases hmem with rfl | rfl
  · exact ⟨hgone, (hkept _ (.tail _ (.head _)) (by simp)).2⟩
  · exact absurd (hkept _ (.head _) (by simp)).1 (by decide)

end Cache

end Tariff
