import Lucidac.Platform.Entities

/-!
# The ADC channels

Eight entries say which lane each ADC channel reads, -1 disables it.  The setter of all entries
checks the upper bound of a lane, the setter of one entry disables it for every negative value,
and both refuse a lane that another entry already reads.
-/

namespace Lucidac.Platform

/-- Every entry is disabled or names a lane, and no lane is read twice. -/
structure AdcValid (channels : Fin 8 → Int) : Prop where
  range : ∀ i, channels i = -1 ∨ (0 ≤ channels i ∧ channels i ≤ 15)
  distinct : ∀ i j, 0 ≤ channels i → channels i = channels j → i = j

instance (channels : Fin 8 → Int) : Decidable (AdcValid channels) :=
  decidable_of_iff ((∀ i, channels i = -1 ∨ (0 ≤ channels i ∧ channels i ≤ 15)) ∧
      ∀ i j, 0 ≤ channels i → channels i = channels j → i = j)
    ⟨fun h => ⟨h.1, h.2⟩, fun h => ⟨h.range, h.distinct⟩⟩

namespace LUCIDAC

def setAdcChannels (s : LUCIDAC) (channels : Fin 8 → Int) : Bool × LUCIDAC :=
  if ∃ i, 15 < channels i then (false, s)
  else if ∃ i j, 0 ≤ channels i ∧ i ≠ j ∧ channels i = channels j then (false, s)
  else (true, { s with adcChannels := channels })

def setAdcChannel (s : LUCIDAC) (idx : Nat) (adcChannel : Int) : Bool × LUCIDAC :=
  if h : idx < 8 then
    let adcChannel := if adcChannel < 0 then -1 else adcChannel
    if adcChannel ≠ -1 ∧ ∃ otherIdx : Fin 8, idx ≠ otherIdx.val ∧ s.adcChannels otherIdx = adcChannel then
      (false, s)
    else (true, { s with adcChannels := Function.update s.adcChannels ⟨idx, h⟩ adcChannel })
  else (false, s)

/-! ### What the setters accept -/

/-- The requests that `set_adc_channels` refuses. -/
def RefusedChannels (channels : Fin 8 → Int) : Prop :=
  (∃ i, 15 < channels i) ∨ ∃ i j, 0 ≤ channels i ∧ i ≠ j ∧ channels i = channels j

theorem setAdcChannels_of_refused (s : LUCIDAC) {channels : Fin 8 → Int}
    (h : RefusedChannels channels) : s.setAdcChannels channels = (false, s) := by
  simp only [setAdcChannels]
  by_cases hmax : ∃ i, 15 < channels i
  · rw [if_pos hmax]
  · rw [if_neg hmax, if_pos (h.resolve_left hmax)]

theorem setAdcChannels_of_not_refused (s : LUCIDAC) {channels : Fin 8 → Int}
    (h : ¬ RefusedChannels channels) :
    s.setAdcChannels channels = (true, { s with adcChannels := channels }) := by
  rw [RefusedChannels, not_or] at h
  simp only [setAdcChannels]
  rw [if_neg h.1, if_neg h.2]

theorem setAdcChannel_of_beyond (s : LUCIDAC) {idx : Nat} (h : 8 ≤ idx) (adcChannel : Int) :
    s.setAdcChannel idx adcChannel = (false, s) := by
  simp only [setAdcChannel]
  rw [dif_neg (Nat.not_lt.mpr h)]

theorem setAdcChannel_of_negative (s : LUCIDAC) (idx : Fin 8) {adcChannel : Int}
    (h : adcChannel < 0) : s.setAdcChannel idx adcChannel =
      (true, { s with adcChannels := Function.update s.adcChannels idx (-1) }) := by
  simp only [setAdcChannel]
  rw [dif_pos idx.isLt, if_pos h, if_neg (fun hc => hc.1 rfl)]

theorem setAdcChannel_of_taken (s : LUCIDAC) (idx : Fin 8) {adcChannel : Int}
    (h : 0 ≤ adcChannel) (htaken : ∃ other, idx ≠ other ∧ s.adcChannels other = adcChannel) :
    s.setAdcChannel idx adcChannel = (false, s) := by
  obtain ⟨other, hne, heq⟩ := htaken
  simp only [setAdcChannel]
  rw [dif_pos idx.isLt, if_neg (not_lt.mpr h), if_pos]
  exact ⟨by omega, other, fun he => hne (Fin.ext he), heq⟩

theorem setAdcChannel_of_free (s : LUCIDAC) (idx : Fin 8) {adcChannel : Int}
    (h : 0 ≤ adcChannel) (hfree : ∀ other, idx ≠ other → s.adcChannels other ≠ adcChannel) :
    s.setAdcChannel idx adcChannel =
      (true, { s with adcChannels := Function.update s.adcChannels idx adcChannel }) := by
  simp only [setAdcChannel]
  rw [dif_pos idx.isLt, if_neg (not_lt.mpr h), if_neg]
  intro hc
  obtain ⟨other, hne, heq⟩ := hc.2
  exact hfree other (fun he => hne (congrArg Fin.val he)) heq

/-- The calls of `set_adc_channel` are a refusal that changes nothing, a disabled entry, or a lane
that no other entry reads. -/
theorem setAdcChannel_cases (s : LUCIDAC) (idx : Nat) (adcChannel : Int) :
    s.setAdcChannel idx adcChannel = (false, s) ∨
    (∃ i : Fin 8, s.setAdcChannel idx adcChannel =
      (true, { s with adcChannels := Function.update s.adcChannels i (-1) })) ∨
    ∃ i : Fin 8, i.val = idx ∧ 0 ≤ adcChannel ∧
      (∀ other, i ≠ other → s.adcChannels other ≠ adcChannel) ∧
      s.setAdcChannel idx adcChannel =
        (true, { s with adcChannels := Function.update s.adcChannels i adcChannel }) := by
  by_cases hidx : idx < 8
  · by_cases hneg : adcChannel < 0
    · exact Or.inr (Or.inl ⟨⟨idx, hidx⟩, s.setAdcChannel_of_negative ⟨idx, hidx⟩ hneg⟩)
    · rw [not_lt] at hneg
      by_cases htaken : ∃ other, (⟨idx, hidx⟩ : Fin 8) ≠ other ∧ s.adcChannels other = adcChannel
      · exact Or.inl (s.setAdcChannel_of_taken ⟨idx, hidx⟩ hneg htaken)
      · have hfree : ∀ other, (⟨idx, hidx⟩ : Fin 8) ≠ other → s.adcChannels other ≠ adcChannel :=
          fun other hne heq => htaken ⟨other, hne, heq⟩
        exact Or.inr (Or.inr ⟨⟨idx, hidx⟩, rfl, hneg, hfree,
          s.setAdcChannel_of_free ⟨idx, hidx⟩ hneg hfree⟩)
  · exact Or.inl (s.setAdcChannel_of_beyond (Nat.not_lt.mp hidx) adcChannel)

end LUCIDAC

namespace AdcValid

theorem update {channels : Fin 8 → Int} (h : AdcValid channels) {i : Fin 8} {adcChannel : Int}
    (hrange : adcChannel = -1 ∨ (0 ≤ adcChannel ∧ adcChannel ≤ 15))
    (hfree : 0 ≤ adcChannel → ∀ other, i ≠ other → channels other ≠ adcChannel) :
    AdcValid (Function.update channels i adcChannel) := by
  constructor
  · intro j
    by_cases hj : j = i
    · rw [hj, Function.update_self]
      exact hrange
    · rw [Function.update_of_ne hj]
      exact h.range j
  · intro j k hj heq
    by_cases hji : j = i
    · by_cases hki : k = i
      · rw [hji, hki]
      · rw [hji, Function.update_self] at hj heq
        rw [Function.update_of_ne hki] at heq
        exact absurd heq.symm (hfree hj k (Ne.symm hki))
    · rw [Function.update_of_ne hji] at hj heq
      by_cases hki : k = i
      · rw [hki, Function.update_self] at heq
        rw [heq] at hj
        exact absurd heq (hfree hj j (Ne.symm hji))
      · rw [Function.update_of_ne hki] at heq
        exact h.distinct j k hj heq

theorem setAdcChannel {s : LUCIDAC} (h : AdcValid s.adcChannels) (idx : Nat) {adcChannel : Int}
    (hmax : adcChannel ≤ 15) : AdcValid (s.setAdcChannel idx adcChannel).2.adcChannels := by
  obtain heq | ⟨i, heq⟩ | ⟨i, -, hmin, hfree, heq⟩ := s.setAdcChannel_cases idx adcChannel
  · rw [heq]
    exact h
  · rw [heq]
    exact h.update (Or.inl rfl) fun hnonneg => absurd hnonneg (by decide)
  · rw [heq]
    exact h.update (Or.inr ⟨hmin, hmax⟩) fun _ => hfree

end AdcValid

end Lucidac.Platform
