import Socle.AIGateway
import Mathlib.Algebra.Order.Ring.Int
import Mathlib.Tactic.Linarith
import Mathlib.Tactic.Ring

/-!
Usage costs: what the floors of `estimate_cost` lose over a list of usages, and how a
cost changes with each count of tokens.
-/

namespace Socle.UsageCosts

open Socle.AIGateway

section Floors

variable {d : Int}

theorem sum_floors_mul_le (hd : 0 < d) (xs : List Int) : (xs.map (· / d)).sum * d ≤ xs.sum := by
  induction xs with
  | nil => simp
  | cons x xs ih =>
      rw [List.map_cons, List.sum_cons, List.sum_cons, Int.add_mul]
      exact Int.add_le_add (Int.ediv_mul_le x (ne_of_gt hd)) ih

theorem sum_floors_le (hd : 0 < d) (xs : List Int) : (xs.map (· / d)).sum ≤ xs.sum / d :=
  Int.le_ediv_of_mul_le hd (sum_floors_mul_le hd xs)

theorem sum_add_length_le (hd : 0 < d) (xs : List Int) :
    xs.sum + xs.length ≤ ((xs.map (· / d)).sum + xs.length) * d := by
  induction xs with
  | nil => simp
  | cons x xs ih =>
      have hx : x + 1 ≤ (x / d + 1) * d := Int.lt_ediv_add_one_mul_self x hd
      calc (x :: xs).sum + (x :: xs).length = (x + 1) + (xs.sum + xs.length) := by
            rw [List.sum_cons, List.length_cons, Int.natCast_succ]
            ring
        _ ≤ (x / d + 1) * d + ((xs.map (· / d)).sum + xs.length) * d := Int.add_le_add hx ih
        _ = (((x :: xs).map (· / d)).sum + (x :: xs).length) * d := by
            rw [List.map_cons, List.sum_cons, List.length_cons, Int.natCast_succ]
            ring

theorem floor_sum_le (hd : 0 < d) {xs : List Int} (hne : xs ≠ []) :
    xs.sum / d ≤ (xs.map (· / d)).sum + xs.length - 1 := by
  have hlength : (0 : Int) < xs.length := Int.natCast_pos.mpr (List.length_pos_iff.mpr hne)
  have hlt : xs.sum / d < (xs.map (· / d)).sum + xs.length :=
    Int.ediv_lt_of_lt_mul hd (by linarith [sum_add_length_le hd xs])
  exact Int.le_sub_one_of_lt hlt

end Floors

/-- The counts that a provider reports: what is cached is part of the input. -/
structure Reported (usage : TokenUsage) : Prop where
  output : 0 ≤ usage.outputTokens
  cached : 0 ≤ usage.cachedTokens
  cached_le : usage.cachedTokens ≤ usage.inputTokens

/-- The sums of the columns of a list of usages. -/
def sumUsage (usages : List TokenUsage) : TokenUsage where
  inputTokens := (usages.map TokenUsage.inputTokens).sum
  outputTokens := (usages.map TokenUsage.outputTokens).sum
  cachedTokens := (usages.map TokenUsage.cachedTokens).sum

/-- The price of a usage for a million times its tokens. -/
def exactCost (price : ModelPrice) (usage : TokenUsage) : Int :=
  max (usage.inputTokens - usage.cachedTokens) 0 * price.inputPerMtok +
    usage.cachedTokens * price.cachedInputPerMtok + usage.outputTokens * price.outputPerMtok

/-- A price where the cache costs something, and no more than the input. -/
structure Fair (price : ModelPrice) : Prop where
  output : 0 ≤ price.outputPerMtok
  cached : 0 ≤ price.cachedInputPerMtok
  cached_le : price.cachedInputPerMtok ≤ price.inputPerMtok

theorem fair_prices : ∀ entry ∈ prices, Fair entry.2 := by
  have htable : ∀ entry ∈ prices, 0 ≤ entry.2.outputPerMtok ∧
      0 ≤ entry.2.cachedInputPerMtok ∧ entry.2.cachedInputPerMtok ≤ entry.2.inputPerMtok := by
    decide
  intro entry hentry
  obtain ⟨houtput, hcached, hle⟩ := htable entry hentry
  exact ⟨houtput, hcached, hle⟩

section Costs

variable {price : ModelPrice} {usage : TokenUsage} {provider model : String}

theorem exists_price (h : (provider, model) ∈ prices.map Prod.fst) :
    ∃ price, Fair price ∧
      ∀ usage, estimateCost provider model usage = exactCost price usage / 1000000 := by
  cases hfound : prices.lookup (provider, model) with
  | none =>
      obtain ⟨entry, hentry, hkey⟩ := List.mem_map.mp h
      exact absurd hkey.symm (bne_iff_ne.mp (List.lookup_eq_none_iff.mp hfound entry hentry))
  | some price =>
      obtain ⟨before, after, hprices, -⟩ := List.lookup_eq_some_iff.mp hfound
      have hentry : ((provider, model), price) ∈ prices :=
        hprices ▸ List.mem_append_right _ List.mem_cons_self
      refine ⟨price, fair_prices _ hentry, fun usage => ?_⟩
      rw [estimateCost, hfound]
      rfl

theorem Fair.input (fair : Fair price) : 0 ≤ price.inputPerMtok := fair.cached.trans fair.cached_le

theorem exactCost_of_le (h : usage.cachedTokens ≤ usage.inputTokens) :
    exactCost price usage = (usage.inputTokens - usage.cachedTokens) * price.inputPerMtok +
      usage.cachedTokens * price.cachedInputPerMtok + usage.outputTokens * price.outputPerMtok := by
  rw [exactCost, max_eq_left (Int.sub_nonneg_of_le h)]

theorem exactCost_nonneg (fair : Fair price) (h : Reported usage) : 0 ≤ exactCost price usage := by
  have hinput := mul_nonneg (Int.sub_nonneg_of_le h.cached_le) fair.input
  have hcached := mul_nonneg h.cached fair.cached
  have houtput := mul_nonneg h.output fair.output
  rw [exactCost_of_le h.cached_le]
  linarith

theorem exactCost_mono_input (fair : Fair price) {n : Int} (h : usage.inputTokens ≤ n) :
    exactCost price usage ≤ exactCost price { usage with inputTokens := n } := by
  have hbillable : max (usage.inputTokens - usage.cachedTokens) 0 ≤
      max (n - usage.cachedTokens) 0 := max_le_max_right 0 (Int.sub_le_sub_right h _)
  have hinput := mul_le_mul_of_nonneg_right hbillable fair.input
  exact add_le_add_left (add_le_add_left hinput _) _

theorem exactCost_mono_output (fair : Fair price) {n : Int} (h : usage.outputTokens ≤ n) :
    exactCost price usage ≤ exactCost price { usage with outputTokens := n } :=
  add_le_add_right (mul_le_mul_of_nonneg_right h fair.output) _

theorem exactCost_antitone_cached (fair : Fair price) {n : Int} (h : usage.cachedTokens ≤ n)
    (hn : n ≤ usage.inputTokens) :
    exactCost price { usage with cachedTokens := n } ≤ exactCost price usage := by
  have hmoved : (n - usage.cachedTokens) * price.cachedInputPerMtok ≤
      (n - usage.cachedTokens) * price.inputPerMtok :=
    mul_le_mul_of_nonneg_left fair.cached_le (Int.sub_nonneg_of_le h)
  rw [exactCost_of_le hn, exactCost_of_le (h.trans hn)]
  linarith

theorem reported_sumUsage {usages : List TokenUsage} (h : ∀ usage ∈ usages, Reported usage) :
    Reported (sumUsage usages) := by
  induction usages with
  | nil => exact ⟨le_rfl, le_rfl, le_rfl⟩
  | cons usage rest ih =>
      have hfirst := h usage List.mem_cons_self
      have hrest := ih fun u hu => h u (List.mem_cons_of_mem _ hu)
      exact ⟨add_nonneg hfirst.output hrest.output, add_nonneg hfirst.cached hrest.cached,
        add_le_add hfirst.cached_le hrest.cached_le⟩

theorem exactCost_sumUsage {usages : List TokenUsage} (h : ∀ usage ∈ usages, Reported usage) :
    exactCost price (sumUsage usages) = (usages.map (exactCost price)).sum := by
  induction usages with
  | nil =>
      rw [exactCost_of_le le_rfl]
      simp [sumUsage]
  | cons usage rest ih =>
      have hrest : ∀ u ∈ rest, Reported u := fun u hu => h u (List.mem_cons_of_mem _ hu)
      rw [exactCost_of_le (reported_sumUsage hrest).cached_le] at ih
      rw [exactCost_of_le (reported_sumUsage h).cached_le, List.map_cons, List.sum_cons,
        ← ih hrest, exactCost_of_le (h usage List.mem_cons_self).cached_le]
      simp only [sumUsage, List.map_cons, List.sum_cons]
      ring

theorem estimateCost_nonneg (h : (provider, model) ∈ prices.map Prod.fst)
    (hreported : Reported usage) : 0 ≤ estimateCost provider model usage := by
  obtain ⟨price, fair, hcost⟩ := exists_price h
  rw [hcost]
  exact Int.ediv_nonneg (exactCost_nonneg fair hreported) (by decide)

theorem estimateCost_sumUsage (h : (provider, model) ∈ prices.map Prod.fst)
    {usages : List TokenUsage} (hne : usages ≠ []) (hreported : ∀ usage ∈ usages, Reported usage) :
    (usages.map (estimateCost provider model)).sum ≤ estimateCost provider model (sumUsage usages) ∧
      estimateCost provider model (sumUsage usages) ≤
        (usages.map (estimateCost provider model)).sum + usages.length - 1 := by
  obtain ⟨price, -, hcost⟩ := exists_price h
  have hpositive : (0 : Int) < 1000000 := by decide
  have hcosts : usages.map (estimateCost provider model) =
      (usages.map (exactCost price)).map (· / 1000000) := by
    rw [List.map_map]
    exact List.map_congr_left fun usage _ => hcost usage
  have hmapped : usages.map (exactCost price) ≠ [] := List.map_eq_nil_iff.not.mpr hne
  have hfloor := floor_sum_le hpositive hmapped
  rw [List.length_map] at hfloor
  rw [hcosts, hcost, exactCost_sumUsage hreported]
  exact ⟨sum_floors_le hpositive _, hfloor⟩

/-- What is billed is not above the exact price of all the usages, and less than a
micro-euro below it for each of them. -/
theorem costs_near_exact (hprice : prices.lookup (provider, model) = some price)
    {usages : List TokenUsage} (hreported : ∀ usage ∈ usages, Reported usage) :
    let billed := (usages.map (estimateCost provider model)).sum
    billed * 1000000 ≤ exactCost price (sumUsage usages) ∧
      exactCost price (sumUsage usages) + usages.length ≤ (billed + usages.length) * 1000000 := by
  have hcosts : usages.map (estimateCost provider model) =
      (usages.map (exactCost price)).map (· / 1000000) := by
    rw [List.map_map]
    refine List.map_congr_left fun usage _ => ?_
    rw [estimateCost, hprice]
    rfl
  have hlength : (usages.map (exactCost price)).length = usages.length := List.length_map _
  rw [hcosts, exactCost_sumUsage hreported, ← hlength]
  exact ⟨sum_floors_mul_le (by decide) _, sum_add_length_le (by decide) _⟩

/-- Costs are not negative, lose less than a micro-euro each to rounding, and follow the
counts of tokens. -/
theorem costs_bounded_and_monotone (h : (provider, model) ∈ prices.map Prod.fst) :
    (∀ usages : List TokenUsage, usages ≠ [] → (∀ usage ∈ usages, Reported usage) →
      let costs := usages.map (estimateCost provider model)
      let cost := estimateCost provider model (sumUsage usages)
      (∀ c ∈ costs, 0 ≤ c) ∧ 0 ≤ cost ∧ costs.sum ≤ cost ∧
        cost ≤ costs.sum + usages.length - 1) ∧
    ∀ usage n,
      (usage.inputTokens ≤ n → estimateCost provider model usage ≤
        estimateCost provider model { usage with inputTokens := n }) ∧
      (usage.outputTokens ≤ n → estimateCost provider model usage ≤
        estimateCost provider model { usage with outputTokens := n }) ∧
      (usage.cachedTokens ≤ n → n ≤ usage.inputTokens →
        estimateCost provider model { usage with cachedTokens := n } ≤
          estimateCost provider model usage) := by
  obtain ⟨price, fair, hcost⟩ := exists_price h
  have hpositive : (0 : Int) < 1000000 := by decide
  refine ⟨fun usages hne hreported => ⟨?_, ?_, estimateCost_sumUsage h hne hreported⟩,
    fun usage n => ⟨?_, ?_, ?_⟩⟩
  · intro c hc
    obtain ⟨usage, husage, rfl⟩ := List.mem_map.mp hc
    exact estimateCost_nonneg h (hreported usage husage)
  · exact estimateCost_nonneg h (reported_sumUsage hreported)
  · intro hle
    rw [hcost, hcost]
    exact Int.ediv_le_ediv hpositive (exactCost_mono_input fair hle)
  · intro hle
    rw [hcost, hcost]
    exact Int.ediv_le_ediv hpositive (exactCost_mono_output fair hle)
  · intro hle hn
    rw [hcost, hcost]
    exact Int.ediv_le_ediv hpositive (exactCost_antitone_cached fair hle hn)

/-- Two usages that lose almost a micro-euro each. -/
theorem costs_of_two_usages :
    let usage : TokenUsage := ⟨1, 1, 1⟩
    let cost := estimateCost "openai" "gpt-4o-mini" (sumUsage [usage, usage])
    0 ≤ cost ∧ cost ≤ 1 := by
  intro usage cost
  have hreported : ∀ u ∈ [usage, usage], Reported u := by
    intro u hu
    have husage : u = usage := by simpa using hu
    exact husage ▸ ⟨by decide, by decide, by decide⟩
  exact ((costs_bounded_and_monotone (by decide)).1 [usage, usage] (List.cons_ne_nil _ _)
    hreported).2.2

/-- The tokens of an event. -/
def usageOf (e : UsageRollup.UsageEvent) : TokenUsage :=
  ⟨e.inputTokens, e.outputTokens, e.cachedTokens⟩

/-- The cost of a group of events is that of its tokens, less what the floors lose. -/
theorem cost_totalsOf (h : (provider, model) ∈ prices.map Prod.fst)
    {events : List UsageRollup.UsageEvent} (hne : events ≠ [])
    (hreported : ∀ e ∈ events, Reported (usageOf e))
    (hpriced : ∀ e ∈ events, e.estimatedCostMicroeur = estimateCost provider model (usageOf e)) :
    let totals := UsageRollup.totalsOf events
    let cost := estimateCost provider model
      ⟨totals.inputTokens, totals.outputTokens, totals.cachedTokens⟩
    totals.estimatedCostMicroeur ≤ cost ∧
      cost ≤ totals.estimatedCostMicroeur + totals.requestCount - 1 := by
  intro totals cost
  have hcosts : ((events.map usageOf).map (estimateCost provider model)).sum =
      totals.estimatedCostMicroeur := by
    rw [List.map_map]
    exact congrArg List.sum (List.map_congr_left fun e he => (hpriced e he).symm)
  have hsum : sumUsage (events.map usageOf) =
      ⟨totals.inputTokens, totals.outputTokens, totals.cachedTokens⟩ := by
    rw [sumUsage, List.map_map, List.map_map, List.map_map]
    rfl
  have hbounds := estimateCost_sumUsage h (List.map_eq_nil_iff.not.mpr hne)
    (List.forall_mem_map.mpr hreported)
  rwa [hsum, hcosts, List.length_map] at hbounds

end Costs

end Socle.UsageCosts
