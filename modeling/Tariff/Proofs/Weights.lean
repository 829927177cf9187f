import Tariff.Proofs.Conditions
import Tariff.Proofs.Precedence

/-!
# What the check of weights is for

A scope that constrains a dimension shall apply before all scopes that do not, whatever these
constrain further down. Scores are sums of weights, and a sum does not know what it was added up
from: with careless weights the tier and the outlet together outweigh the operation, or tie with
it. So weights are checked, once, when an engine is made.

The check asks for three comparisons and a sign. That they are enough is `compare_total`: the
scores are then in the order of the patterns, which dimensions a scope constrains, read from the
one that counts most. Nor is any of them too much. Each is the comparison of two scopes that
cover one request, a dimension against all those below it (`isValid_of_isLexicographic`). So the
weights that pass are exactly those whose scores keep the order, and no two patterns tie.

Weights have 32 bits. A sum of weights may have more, and is not cut off: the check counts it as
too large for any weight (`isValidIn32_eq`), and scores have 64 bits, which is enough for four
weights (`total_lt`).
-/

namespace Tariff

/-! ## Patterns

Only which dimensions are constrained counts for a score. There are sixteen patterns of these. -/

/-- **Which dimensions a scope constrains**, the one that counts most first. Patterns are ordered as
lists are, and a dimension that is constrained comes after one that is not. -/
def Scope.pattern (s : Scope) : List Bool :=
  [s.operationType.isSome, s.customerTier.isSome, s.cylinderType.isSome, s.outletId.isSome]

/-- **The more specific scope has the greater pattern.** There are sixteen patterns, and the
comparison of two scopes looks at nothing else. -/
theorem Scope.specificity_eq_lt_iff {a b : Scope} :
    a.specificity b = .lt ↔ b.pattern < a.pattern := by
  have hbool : ∀ x y : Bool, compare x y = .lt ↔ x < y := by decide
  unfold specificity pattern
  simp only [Ordering.then_eq_lt, List.cons_lt_cons_iff, Std.compare_eq_iff_eq, hbool,
    List.not_lt_nil, and_false, or_false]

/-- **Scopes with one pattern are equally specific**, and no others. -/
theorem Scope.specificity_eq_eq_iff {a b : Scope} :
    a.specificity b = .eq ↔ b.pattern = a.pattern := by
  unfold specificity pattern
  simp only [Ordering.then_eq_eq, Std.compare_eq_iff_eq, List.cons.injEq, and_true]

/-- **The scope of some of the dimensions of a request.** -/
def Request.part (r : Request) (operation tier cylinder outlet : Bool) : Scope where
  operationType := if operation then r.operationType else none
  customerTier := if tier then r.customerTier else none
  cylinderType := if cylinder then r.cylinderType else none
  outletId := if outlet then r.outletId else none

/-- It covers the request, since it asks for nothing that the request does not have. -/
theorem Request.covers_part (r : Request) (operation tier cylinder outlet : Bool) :
    (r.part operation tier cylinder outlet).covers r = true := by
  have hadmits : ∀ {α : Type} [DecidableEq α] (b : Bool) (x : Option α),
      Scope.admits (if b then x else none) x = true := by
    intro α _ b x
    cases b <;> simp
  simp [Scope.covers, part, hadmits]

/-- Every pattern is that of a part of a request that carries every field. So to see that weights
order all patterns, one such request is enough. -/
theorem Request.pattern_part_full (operation tier cylinder outlet : Bool) :
    (full.part operation tier cylinder outlet).pattern = [operation, tier, cylinder, outlet] := by
  cases operation <;> cases tier <;> cases cylinder <;> cases outlet <;> rfl

namespace Weights

variable {w : Weights}

/-! ## The order of scores

That valid weights keep the order was shown for look-ups. The converse takes for each comparison of
the check two scopes that it is about. -/

/-- A scope that covers a request has a score, which is the sum of its weights. -/
theorem score?_of_covers {s : Scope} {r : Request} (h : s.covers r = true) :
    w.score? s r = some (w.total s) := if_pos h

/-- **The scores keep the order**: of two scopes that cover a request, the one with the greater
pattern has the greater score, and no other. -/
def IsLexicographic (w : Weights) : Prop :=
  ∀ (r : Request) (a b : Scope), a.covers r = true → b.covers r = true →
    ∃ m n, w.score? a r = some m ∧ w.score? b r = some n ∧ (n < m ↔ b.pattern < a.pattern)

/-- The check, as comparisons between numbers without a bound. -/
theorem isValid_iff : w.isValid = true ↔ 0 < w.outletId.toNat
    ∧ w.outletId.toNat < w.cylinderType.toNat
    ∧ w.cylinderType.toNat + w.outletId.toNat < w.customerTier.toNat
    ∧ w.customerTier.toNat + w.cylinderType.toNat + w.outletId.toNat < w.operationType.toNat := by
  unfold isValid
  simp [and_assoc]

/-- **The check is enough**, since valid weights compare scopes by specificity. -/
theorem isLexicographic_of_isValid (h : w.isValid = true) : w.IsLexicographic := by
  intro r a b ha hb
  refine ⟨_, _, score?_of_covers ha, score?_of_covers hb, ?_⟩
  rw [← Scope.specificity_eq_lt_iff, ← compare_total h, Nat.compare_eq_lt]

/-- The score of part of a request that carries every field. -/
theorem total_part_full (operation tier cylinder outlet : Bool) :
    w.total (Request.full.part operation tier cylinder outlet)
      = weigh w.operationType operation + weigh w.customerTier tier
        + weigh w.cylinderType cylinder + weigh w.outletId outlet := by
  cases operation <;> cases tier <;> cases cylinder <;> cases outlet <;> rfl

/-- **The check asks for nothing too much**: each of its comparisons is that of one dimension
with all those below it. For each of them two parts of one request are named, and their scores
written out. -/
theorem isValid_of_isLexicographic (h : w.IsLexicographic) : w.isValid = true := by
  have hless : ∀ o t c l o' t' c' l', [o', t', c', l'] < [o, t, c, l] →
      w.total (Request.full.part o' t' c' l') < w.total (Request.full.part o t c l) := by
    intro o t c l o' t' c' l' hlt
    obtain ⟨m, n, hm, hn, hiff⟩ := h .full _ _ (Request.full.covers_part o t c l)
      (Request.full.covers_part o' t' c' l')
    rw [score?_of_covers (Request.covers_part ..)] at hm hn
    cases hm
    cases hn
    rw [hiff, Request.pattern_part_full, Request.pattern_part_full]
    exact hlt
  have houtlet := hless false false false true false false false false (by decide)
  have hcylinder := hless false false true false false false false true (by decide)
  have htier := hless false true false false false false true true (by decide)
  have hoperation := hless true false false false false true true true (by decide)
  simp only [total_part_full, weigh, Bool.false_eq_true, if_true, if_false, Nat.zero_add,
    Nat.add_zero] at houtlet hcylinder htier hoperation
  exact isValid_iff.2 ⟨houtlet, hcylinder, htier, hoperation⟩

/-! ## Bits

The sums of the check are made with the 32 bits of a weight, and scores with 64. In neither is
anything cut off. -/

/-- The sum of two weights, if it has no more than 32 bits. -/
def sum? (a b : UInt32) : Option UInt32 :=
  if a.toNat + b.toNat < UInt32.size then some (a + b) else none

/-- **The check with sums of 32 bits.** No weight exceeds a sum that has more, so such a sum fails
the check and is not cut off. -/
def isValidIn32 (w : Weights) : Bool :=
  let belowTier := sum? w.cylinderType w.outletId
  let belowOperation := belowTier.bind fun sum => sum? sum w.customerTier
  0 < w.outletId && w.outletId < w.cylinderType && belowTier.any (· < w.customerTier)
    && belowOperation.any (· < w.operationType)

theorem sum?_eq_some_iff {a b c : UInt32} : sum? a b = some c ↔ c.toNat = a.toNat + b.toNat := by
  unfold sum?
  split
  · next hsum =>
    rw [Option.some.injEq, ← UInt32.toNat_inj, UInt32.toNat_add, Nat.mod_eq_of_lt hsum, eq_comm]
  · next hsum => exact iff_of_false nofun (fun h => hsum (h ▸ c.toNat_lt))

/-- **The two checks are the same**: what exceeds a sum is a weight, and so the sum has no more
bits than a weight has. -/
theorem isValidIn32_eq (w : Weights) : w.isValidIn32 = w.isValid := by
  rw [Bool.eq_iff_iff, isValid_iff]
  unfold isValidIn32
  simp only [Bool.and_eq_true, decide_eq_true_eq, Option.any_eq_true, Option.bind_eq_some_iff,
    sum?_eq_some_iff, UInt32.lt_iff_toNat_lt]
  constructor
  · rintro ⟨⟨⟨houtlet, hcylinder⟩, s, hs, htier⟩, t, ⟨s', hs', ht⟩, hoperation⟩
    exact ⟨houtlet, hcylinder, by omega, by omega⟩
  · rintro ⟨houtlet, hcylinder, htier, hoperation⟩
    have hfits : ∀ n < w.operationType.toNat, ∃ s : UInt32, s.toNat = n := fun n hn =>
      ⟨UInt32.ofNat n, UInt32.toNat_ofNat_of_lt' (Nat.lt_trans hn w.operationType.toNat_lt)⟩
    obtain ⟨s, hs⟩ := hfits (w.cylinderType.toNat + w.outletId.toNat) (by omega)
    obtain ⟨t, ht⟩ := hfits (s.toNat + w.customerTier.toNat) (by omega)
    exact ⟨⟨⟨houtlet, hcylinder⟩, s, hs, by omega⟩, t, ⟨s, hs, ht⟩, by omega⟩

/-- **A score has no more than 64 bits.** It is a sum of four weights. -/
theorem total_lt (w : Weights) (s : Scope) : w.total s < UInt64.size := by
  have hweigh : ∀ (weight : UInt32) (x : Bool), weigh weight x < 2 ^ 32 := fun weight x =>
    Nat.lt_of_le_of_lt (weigh_le weight x) weight.toNat_lt
  have hoperation := hweigh w.operationType s.operationType.isSome
  have htier := hweigh w.customerTier s.customerTier.isSome
  have hcylinder := hweigh w.cylinderType s.cylinderType.isSome
  have houtlet := hweigh w.outletId s.outletId.isSome
  unfold total UInt64.size
  omega

/-- **The weights that pass the check are those whose scores keep the order.** Weights pass, which
is also told with sums of 32 bits, if and only if of any two scopes that cover a request the one
with the greater pattern, and no other, has the greater score. Scopes with the same score then
constrain the same dimensions. And a score never has more than 64 bits. -/
theorem validate_eq_ok_iff_isLexicographic (w : Weights) :
    (w.validate = .ok () ↔ w.IsLexicographic)
      ∧ (w.validate = .ok () → ∀ r a b m, w.score? a r = some m → w.score? b r = some m →
        a.pattern = b.pattern)
      ∧ (w.validate = .ok () ↔ w.isValidIn32 = true)
      ∧ ∀ r a m, w.score? a r = some m → m < UInt64.size := by
  have hvalidate : w.validate = .ok () ↔ w.isValid = true := by
    unfold validate
    cases w.isValid <;> simp
  have hscore : ∀ {r a m}, w.score? a r = some m → m = w.total a := by
    intro r a m h
    unfold score? at h
    split at h
    · exact (Option.some.inj h).symm
    · cases h
  rw [hvalidate, isValidIn32_eq]
  refine ⟨⟨isLexicographic_of_isValid, isValid_of_isLexicographic⟩, ?_, Iff.rfl, ?_⟩
  · intro hvalid r a b m ha hb
    rw [← Scope.specificity_eq_eq_iff, ← compare_total hvalid, ← hscore ha, ← hscore hb]
    exact Nat.compare_eq_eq.2 rfl
  · intro r a m h
    rw [hscore h]
    exact w.total_lt a

/-- The weights of three dimensions add up to just below the largest weight that there is. They
pass, and the operation still outweighs the three. -/
theorem validate_eq_ok_iff_isLexicographic_large :
    ∃ w : Weights, w = ⟨4294967295, 2147483647, 1073741824, 1073741822⟩
      ∧ w.validate = .ok () ∧ w.IsLexicographic
      ∧ ∀ r a b m, w.score? a r = some m → w.score? b r = some m → a.pattern = b.pattern := by
  obtain ⟨horder, hties, -, -⟩ := validate_eq_ok_iff_isLexicographic
    ⟨4294967295, 2147483647, 1073741824, 1073741822⟩
  exact ⟨_, rfl, rfl, horder.1 rfl, hties rfl⟩

end Weights

end Tariff
