import Lucidac.Mode.FlexIOControl

/-!
# The timers of IC and OP

Which times two chained timers of sixteen bits can count, and what `init` writes for them.
-/

namespace Lucidac.FlexIOControl

open Framework (divide_of_ne_zero)

section Timers

/-- The ticks of a 480 MHz clock in a time. -/
def ticks (timeNs : BitVec 64) : Nat := timeNs.toNat * 480 / 1000

/-- Two chained timers of sixteen bits can count the ticks, up to ten. -/
def FitsTimers (timeNs : BitVec 64) : Prop :=
  ∃ x y, x < 65536 ∧ y < 65536 ∧ x * y ≤ ticks timeNs ∧ ticks timeNs ≤ x * y + 10

/-- What a timer counts, alone or with the second one behind it. -/
def encodedTicks (first second : Fin 8) (c : FlexIOControl) : Nat :=
  if c.timcmp second = 0 then (c.timcmp first).toNat
  else ((c.timcmp first).toNat + 1) * (c.timcmp second).toNat

structure Counts (first second : Fin 8) (timeNs : BitVec 64) (c : FlexIOControl) : Prop where
  first_le : (c.timcmp first).toNat ≤ 65535
  second_le : (c.timcmp second).toNat ≤ 65535
  below : encodedTicks first second c ≤ ticks timeNs
  near : ticks timeNs ≤ encodedTicks first second c + 10

variable {first second timer : Fin 8} {timeNs : BitVec 64} {c : FlexIOControl}

@[simp] theorem timcmp_setTimcmp_self (x : BitVec 32) : (c.setTimcmp timer x).timcmp timer = x :=
  Function.update_self _ _ _

theorem timcmp_setTimcmp_of_ne {other : Fin 8} (h : other ≠ timer) (x : BitVec 32) :
    (c.setTimcmp timer x).timcmp other = c.timcmp other :=
  Function.update_of_ne h _ _

@[simp] theorem timcmp_setShiftbuf (shifter : Fin 8) (x : BitVec 32) :
    (c.setShiftbuf shifter x).timcmp = c.timcmp := rfl

@[simp] theorem timcmp_configureStates (onOverload : OnOverload) (onExtHalt : OnExtHalt) :
    (c.configureStates onOverload onExtHalt).timcmp = c.timcmp := rfl

theorem toNat_ticks (hmax : timeNs.toNat ≤ 9000000000) :
    (timeNs * (480 : BitVec 32).setWidth 64 / 1000).toNat = ticks timeNs := by
  have hmul : (timeNs * (480 : BitVec 32).setWidth 64).toNat = timeNs.toNat * 480 := by
    rw [BitVec.toNat_mul]
    exact Nat.mod_eq_of_lt (by simp; omega)
  rw [BitVec.toNat_udiv, hmul]
  rfl

/-- The two compare values of a pair of factors count their product. -/
theorem counts_setTimcmp {x y : BitVec 64} (hne : first ≠ second) (hx : 1 ≤ x.toNat)
    (hfactors : NearFactors (ticks timeNs) 10 x.toNat y.toNat) (hxmax : x.toNat < 65536)
    (hymax : y.toNat < 65536) :
    Counts first second timeNs
      ((c.setTimcmp first ((x - 1).setWidth 32)).setTimcmp second (y.setWidth 32)) := by
  have hpos := hfactors.pos
  have hpred : ((x - 1).setWidth 32).toNat = x.toNat - 1 := by
    rw [BitVec.toNat_setWidth, BitVec.toNat_sub_of_le (BitVec.le_def.mpr (by simpa using hx))]
    exact Nat.mod_eq_of_lt (by simp; omega)
  have hsame : (y.setWidth 32).toNat = y.toNat := by
    rw [BitVec.toNat_setWidth]
    exact Nat.mod_eq_of_lt (by omega)
  have hnonzero : y.setWidth 32 ≠ 0 := by
    intro hzero
    rw [hzero] at hsame
    simp at hsame
    omega
  have hencoded : encodedTicks first second
      ((c.setTimcmp first ((x - 1).setWidth 32)).setTimcmp second (y.setWidth 32)) =
        x.toNat * y.toNat := by
    rw [encodedTicks, timcmp_setTimcmp_self, if_neg hnonzero, timcmp_setTimcmp_of_ne hne,
      timcmp_setTimcmp_self, hpred, hsame, Nat.sub_add_cancel hx]
  constructor
  · rw [timcmp_setTimcmp_of_ne hne, timcmp_setTimcmp_self, hpred]
    omega
  · rw [timcmp_setTimcmp_self, hsame]
    omega
  · rw [hencoded]
    exact hfactors.below
  · rw [hencoded]
    exact hfactors.near

theorem counts_single (hne : first ≠ second) (hshort : ticks timeNs ≤ 65535)
    {compare : BitVec 32} (hcompare : compare.toNat = ticks timeNs) :
    Counts first second timeNs ((c.setTimcmp first compare).setTimcmp second 0) := by
  have hencoded : encodedTicks first second ((c.setTimcmp first compare).setTimcmp second 0) =
      ticks timeNs := by
    rw [encodedTicks, timcmp_setTimcmp_self, if_pos rfl, timcmp_setTimcmp_of_ne hne,
      timcmp_setTimcmp_self, hcompare]
  constructor
  · rw [timcmp_setTimcmp_of_ne hne, timcmp_setTimcmp_self, hcompare]
    exact hshort
  · rw [timcmp_setTimcmp_self]
    exact Nat.zero_le _
  · exact Nat.le_of_eq hencoded
  · rw [hencoded]
    exact Nat.le_add_right _ _

/-- What `configureTimers` leaves, with its result. -/
structure Configured (first second : Fin 8) (timeNs : BitVec 64) (c : FlexIOControl) (fits : Bool)
    (c' : FlexIOControl) : Prop where
  fits_iff : fits = true ↔ FitsTimers timeNs
  counts : fits = true → Counts first second timeNs c'
  refused : fits = false → c' = c
  others : ∀ timer, timer ≠ first → timer ≠ second → c'.timcmp timer = c.timcmp timer

theorem Configured.of_counts {c' : FlexIOControl} (hfits : FitsTimers timeNs)
    (hcounts : Counts first second timeNs c')
    (hothers : ∀ timer, timer ≠ first → timer ≠ second → c'.timcmp timer = c.timcmp timer) :
    Configured first second timeNs c true c' where
  fits_iff := iff_of_true rfl hfits
  counts := fun _ => hcounts
  refused := fun h => Bool.noConfusion h
  others := hothers

theorem setTimcmp_others (x y : BitVec 32) (timer : Fin 8) (hfirst : timer ≠ first)
    (hsecond : timer ≠ second) :
    ((c.setTimcmp first x).setTimcmp second y).timcmp timer = c.timcmp timer := by
  rw [timcmp_setTimcmp_of_ne hsecond, timcmp_setTimcmp_of_ne hfirst]

theorem fitsTimers_iff {x y : Nat} (hlarge : 10 < ticks timeNs)
    (hfactors : NearFactors (ticks timeNs) 10 x y)
    (hleast : ∀ x' y', NearFactors (ticks timeNs) 10 x' y' →
      x ≤ max x' (Nat.sqrt (ticks timeNs))) :
    FitsTimers timeNs ↔ x < 65536 ∧ y < 65536 := by
  constructor
  · rintro ⟨x', y', hx', hy', hbelow, hnear⟩
    have horder := hfactors.order
    have hroot : Nat.sqrt (ticks timeNs) < 65536 := by
      have hmul : x' * y' ≤ 65535 * 65535 := Nat.mul_le_mul (by omega) (by omega)
      exact Nat.sqrt_lt.mpr (by omega)
    have hprod : 0 < x' * y' := by omega
    have hxpos : 0 < x' := Nat.pos_of_mul_pos_right hprod
    have hypos : 0 < y' := Nat.pos_of_mul_pos_left hprod
    obtain hle | hle := Nat.le_total y' x'
    · have hx := hleast x' y' ⟨hypos, hle, hbelow, hnear⟩
      omega
    · rw [Nat.mul_comm] at hbelow hnear
      have hx := hleast y' x' ⟨hxpos, hle, hbelow, hnear⟩
      omega
  · rintro ⟨hx, hy⟩
    exact ⟨x, y, hx, hy, hfactors.below, hfactors.near⟩

theorem configureTimers_configured (hne : first ≠ second) (hmin : 100 ≤ timeNs.toNat)
    (hmax : timeNs.toNat ≤ 9000000000) {fuel : Nat} (hfuel : 4320000000 < fuel) :
    ∃ fits c', c.configureTimers fuel first second 480 timeNs = some (fits, c') ∧
      Configured first second timeNs c fits c' := by
  have hticks := toNat_ticks hmax
  have hbound : ticks timeNs ≤ 4320000000 := by
    rw [ticks]
    omega
  rw [configureTimers, divide_of_ne_zero _ (by decide), Option.bind_eq_bind, Option.bind_some]
  generalize timeNs * (480 : BitVec 32).setWidth 64 / 1000 = input at hticks ⊢
  have hlimit : timeNs < 65535 * 1000 / (480 : BitVec 32).setWidth 64 ↔ timeNs.toNat < 136531 :=
    BitVec.lt_def
  by_cases hsingle : timeNs.toNat < 136531
  · have hshort : ticks timeNs ≤ 65535 := by
      rw [ticks]
      omega
    have hcompare : (input.setWidth 32).toNat = ticks timeNs := by
      rw [BitVec.toNat_setWidth, hticks]
      exact Nat.mod_eq_of_lt (by omega)
    have hfits : FitsTimers timeNs :=
      ⟨ticks timeNs, 1, by omega, by decide, by omega, by omega⟩
    rw [if_pos (hlimit.mpr hsingle)]
    exact ⟨_, _, rfl, .of_counts hfits (counts_single hne hshort hcompare) (setTimcmp_others _ _)⟩
  · have hlarge : 10 < ticks timeNs := by
      rw [ticks]
      omega
    have hdelta : (10 : BitVec 32).toNat ≤ input.toNat := by
      rw [hticks]
      exact Nat.le_of_lt hlarge
    obtain ⟨x, y, heq, hfactors, hleast⟩ :=
      factorize_least (by omega) (by omega) hdelta fuel (by omega)
    rw [hticks] at hfactors hleast
    have hfits := fitsTimers_iff hlarge hfactors hleast
    have hpos := hfactors.pos
    have horder := hfactors.order
    have hguard : ((1 : BitVec 64) <<< 16 ≤ x ∨ (1 : BitVec 64) <<< 16 ≤ y) ↔
        65536 ≤ x.toNat ∨ 65536 ≤ y.toNat :=
      or_congr BitVec.le_def BitVec.le_def
    rw [if_neg (mt hlimit.mp hsingle), heq, Option.bind_eq_bind, Option.bind_some]
    by_cases htoo : 65536 ≤ x.toNat ∨ 65536 ≤ y.toNat
    · have hnot : ¬ FitsTimers timeNs := by
        rw [hfits]
        omega
      rw [if_pos (hguard.mpr htoo)]
      exact ⟨false, c, rfl, iff_of_false Bool.false_ne_true hnot,
        fun h => Bool.noConfusion h, fun _ => rfl, fun _ _ _ => rfl⟩
    · have hsmall : x.toNat < 65536 ∧ y.toNat < 65536 := by omega
      rw [if_neg (mt hguard.mp htoo)]
      exact ⟨_, _, rfl, .of_counts (hfits.mpr hsmall)
        (counts_setTimcmp hne (Nat.le_trans hpos horder) hfactors hsmall.1 hsmall.2)
        (setTimcmp_others _ _)⟩

end Timers

section Init

variable {flexio : FlexIOHandler} {c : FlexIOControl}

def Mapped (flexio : FlexIOHandler) : Prop :=
  ∀ pin ∈ relevantPins, flexio.mapIOPinToFlexPin pin ≠ 0xff

theorem setIOPinsToFlexMode_of_mapped {pins : List (BitVec 8)}
    (h : ∀ pin ∈ pins, flexio.mapIOPinToFlexPin pin ≠ 0xff) :
    ∃ c', c.setIOPinsToFlexMode flexio pins = (true, c') ∧ c'.timcmp = c.timcmp := by
  induction pins generalizing c with
  | nil => exact ⟨c, rfl, rfl⟩
  | cons pin pins ih =>
    rw [setIOPinsToFlexMode, if_neg (h pin List.mem_cons_self)]
    exact ih fun pin hpin => h pin (List.mem_cons_of_mem _ hpin)

/-- Every compare value that was changed fits a timer. -/
def SmallWrites (c c' : FlexIOControl) : Prop :=
  ∀ timer, c'.timcmp timer = c.timcmp timer ∨ (c'.timcmp timer).toNat ≤ 65535

theorem SmallWrites.of_eq {c' : FlexIOControl} (h : c'.timcmp = c.timcmp) : SmallWrites c c' :=
  fun timer => .inl (congrFun h timer)

theorem SmallWrites.trans {c' c'' : FlexIOControl} (h : SmallWrites c c')
    (h' : SmallWrites c' c'') : SmallWrites c c'' := by
  intro timer
  obtain heq | hle := h' timer
  · rw [heq]
    exact h timer
  · exact .inr hle

theorem smallWrites_setTimcmp (timer : Fin 8) {x : BitVec 32} (hx : x.toNat ≤ 65535) :
    SmallWrites c (c.setTimcmp timer x) := by
  intro other
  by_cases h : other = timer
  · rw [h, timcmp_setTimcmp_self]
    exact .inr hx
  · exact .inl (timcmp_setTimcmp_of_ne h x)

theorem Configured.smallWrites {first second : Fin 8} {timeNs : BitVec 64} {fits : Bool}
    {c' : FlexIOControl} (h : Configured first second timeNs c fits c') : SmallWrites c c' := by
  intro timer
  cases fits with
  | false => exact .inl (by rw [h.refused rfl])
  | true =>
    have hcounts := h.counts rfl
    by_cases hfirst : timer = first
    · rw [hfirst]
      exact .inr hcounts.first_le
    · by_cases hsecond : timer = second
      · rw [hsecond]
        exact .inr hcounts.second_le
      · exact .inl (h.others timer hfirst hsecond)

theorem Counts.congr {first second : Fin 8} {timeNs : BitVec 64} {c' : FlexIOControl}
    (h : Counts first second timeNs c) (hfirst : c'.timcmp first = c.timcmp first)
    (hsecond : c'.timcmp second = c.timcmp second) : Counts first second timeNs c' := by
  have hencoded : encodedTicks first second c' = encodedTicks first second c := by
    rw [encodedTicks, encodedTicks, hfirst, hsecond]
  exact ⟨hfirst ▸ h.first_le, hsecond ▸ h.second_le, hencoded ▸ h.below, hencoded ▸ h.near⟩

@[simp] theorem timcmp_configureIdle (sync : Sync) : (c.configureIdle sync).timcmp = c.timcmp := by
  cases sync <;> rfl

theorem icRange_iff {timeNs : BitVec 64} : ¬ (timeNs < 100 ∨ 9000000000 ≤ timeNs) ↔
    100 ≤ timeNs.toNat ∧ timeNs.toNat < 9000000000 := by
  rw [not_or, BitVec.not_lt, BitVec.not_le]
  rfl

theorem opRange_iff {timeNs : BitVec 64} : ¬ (timeNs < 100 ∨ 9000000000 < timeNs) ↔
    100 ≤ timeNs.toNat ∧ timeNs.toNat ≤ 9000000000 := by
  rw [not_or, BitVec.not_lt, BitVec.not_lt]
  rfl

/-- Everything before the timer of the first state. -/
theorem smallWrites_before (sync : Sync) :
    SmallWrites c ((((((c.setTimcmp tSyncClk 0xff00).setShiftbuf zSyncMatch 0x550f0000).setTimcmp
      tSyncTrigger 0x100).configureIdle sync).setTimcmp tStateCheck 1)) := by
  have hclk : SmallWrites c (c.setTimcmp tSyncClk 0xff00) :=
    smallWrites_setTimcmp tSyncClk (by decide)
  have htrigger := smallWrites_setTimcmp (c := (c.setTimcmp tSyncClk 0xff00).setShiftbuf zSyncMatch
    0x550f0000) tSyncTrigger (x := 0x100) (by decide)
  have hcheck := smallWrites_setTimcmp (c := ((((c.setTimcmp tSyncClk 0xff00).setShiftbuf zSyncMatch
    0x550f0000).setTimcmp tSyncTrigger 0x100).configureIdle sync)) tStateCheck (x := 1) (by decide)
  exact ((hclk.trans (.of_eq (timcmp_setShiftbuf _ _))).trans htrigger).trans
    ((SmallWrites.of_eq (timcmp_configureIdle sync)).trans hcheck)

/-- What `init` leaves, with its result. -/
structure Initialized (icTimeNs opTimeNs : BitVec 64) (c : FlexIOControl) (success : Bool)
    (c' : FlexIOControl) : Prop where
  success_iff : success = true ↔ FitsTimers icTimeNs ∧ FitsTimers opTimeNs
  ic : success = true → Counts tIc tIcSecond icTimeNs c'
  op : success = true → Counts tOp tOpSecond opTimeNs c'
  writes : SmallWrites c c'

section Times

variable {icTimeNs opTimeNs : BitVec 64} {fuel : Nat}
  (hop : 100 ≤ opTimeNs.toNat ∧ opTimeNs.toNat ≤ 9000000000) (hfuel : 4320000000 < fuel)
include hop hfuel

theorem configureOp_configured (hpins : Mapped flexio) (onOverload : OnOverload)
    (onExtHalt : OnExtHalt) :
    ∃ success c', c.configureOp flexio fuel 480 opTimeNs onOverload onExtHalt = some (success, c') ∧
      Configured tOp tOpSecond opTimeNs c success c' := by
  have hrange := opRange_iff.mpr hop
  obtain ⟨fits, c₁, heq, hconfigured⟩ := configureTimers_configured (c := c)
    (show tOp ≠ tOpSecond by decide) hop.1 hop.2 hfuel
  simp only [configureOp]
  rw [if_neg hrange, heq, Option.bind_eq_bind, Option.bind_some]
  cases fits with
  | false => exact ⟨false, c₁, rfl, hconfigured⟩
  | true =>
    obtain ⟨c₂, hmapped, htimcmp⟩ := setIOPinsToFlexMode_of_mapped
      (c := c₁.configureStates onOverload onExtHalt) hpins
    have hsame : ∀ timer, c₂.timcmp timer = c₁.timcmp timer := by
      intro timer
      rw [htimcmp, timcmp_configureStates]
    rw [if_neg (show ¬ (!true) = true by decide), hmapped]
    refine ⟨true, _, rfl, .of_counts (hconfigured.fits_iff.mp rfl)
      ((hconfigured.counts rfl).congr (hsame _) (hsame _)) ?_⟩
    intro timer hfirst hsecond
    exact (hsame timer).trans (hconfigured.others timer hfirst hsecond)

theorem init_initialized (hpins : Mapped flexio) (hclock : flexio.computeClockRate = 480000000)
    (hic : 100 ≤ icTimeNs.toNat ∧ icTimeNs.toNat < 9000000000) (onOverload : OnOverload)
    (onExtHalt : OnExtHalt) (sync : Sync) :
    ∃ success c', init flexio fuel icTimeNs opTimeNs onOverload onExtHalt sync c =
        some (success, c') ∧ Initialized icTimeNs opTimeNs c success c' := by
  have hclk : flexio.mapIOPinToFlexPin pinSyncClk ≠ 0xff := hpins _ (by decide)
  have hid : flexio.mapIOPinToFlexPin pinSyncId ≠ 0xff := hpins _ (by decide)
  have hrange := icRange_iff.mpr hic
  have hmhz : flexio.computeClockRate / 1000000 = 480 := by
    rw [hclock]
    rfl
  have hbefore := smallWrites_before (c := c) sync
  simp only [init]
  rw [if_neg hclk, if_neg hid, if_neg hrange, hmhz]
  generalize ((((((c.setTimcmp tSyncClk 0xff00).setShiftbuf zSyncMatch 0x550f0000).setTimcmp
    tSyncTrigger 0x100).configureIdle sync).setTimcmp tStateCheck 1)) = before at hbefore ⊢
  obtain ⟨fits, c₁, hfirst, hconfigured⟩ := configureTimers_configured (c := before)
    (show tIc ≠ tIcSecond by decide) hic.1 (Nat.le_of_lt hic.2) hfuel
  have hwrites := hbefore.trans hconfigured.smallWrites
  rw [hfirst, Option.bind_eq_bind, Option.bind_some]
  cases fits with
  | false =>
    have hnot : ¬ FitsTimers icTimeNs := mt hconfigured.fits_iff.mpr Bool.false_ne_true
    exact ⟨false, c₁, rfl, iff_of_false Bool.false_ne_true fun h => hnot h.1,
      fun h => Bool.noConfusion h, fun h => Bool.noConfusion h, hwrites⟩
  | true =>
    have hfits : FitsTimers icTimeNs := hconfigured.fits_iff.mp rfl
    obtain ⟨success, c₂, hsecond, hconfigured₂⟩ := configureOp_configured
      (c := c₁.setShiftbuf sIc (stateShiftbuf 0xef ![sIc, sIc, sIc, sIc, sOp, sOp, sOp, sOp]))
      hop hfuel hpins onOverload onExtHalt
    have hkept : ∀ timer, timer ≠ tOp → timer ≠ tOpSecond → c₂.timcmp timer = c₁.timcmp timer := by
      intro timer hfirst hsecond
      rw [hconfigured₂.others timer hfirst hsecond, timcmp_setShiftbuf]
    have hcounts : Counts tIc tIcSecond icTimeNs c₂ :=
      (hconfigured.counts rfl).congr (hkept _ (by decide) (by decide))
        (hkept _ (by decide) (by decide))
    exact ⟨success, c₂, hsecond, hconfigured₂.fits_iff.trans (and_iff_right hfits).symm,
      fun _ => hcounts, hconfigured₂.counts,
      (hwrites.trans (.of_eq (timcmp_setShiftbuf _ _))).trans hconfigured₂.smallWrites⟩

omit hop in
theorem isSome_configureOp (onOverload : OnOverload) (onExtHalt : OnExtHalt) :
    (c.configureOp flexio fuel 480 opTimeNs onOverload onExtHalt).isSome = true := by
  simp only [configureOp]
  split
  · rfl
  · next hrange =>
    rw [opRange_iff] at hrange
    obtain ⟨fits, c₁, heq, -⟩ := configureTimers_configured (c := c)
      (show tOp ≠ tOpSecond by decide) hrange.1 hrange.2 hfuel
    rw [heq, Option.bind_eq_bind, Option.bind_some]
    cases fits with
    | false => rfl
    | true =>
      rw [if_neg (show ¬ (!true) = true by decide)]
      split
      · rfl
      · rfl

omit hop in
/-- With the clock of the board `init` ends whatever times are asked for. -/
theorem isSome_init (hclock : flexio.computeClockRate = 480000000) (onOverload : OnOverload)
    (onExtHalt : OnExtHalt) (sync : Sync) :
    (init flexio fuel icTimeNs opTimeNs onOverload onExtHalt sync c).isSome = true := by
  have hmhz : flexio.computeClockRate / 1000000 = 480 := by
    rw [hclock]
    rfl
  simp only [init]
  rw [hmhz]
  split
  · rfl
  · split
    · rfl
    · split
      · rfl
      · next hrange =>
        rw [icRange_iff] at hrange
        obtain ⟨fits, c₁, heq, -⟩ := configureTimers_configured
          (c := ((((c.setTimcmp tSyncClk 0xff00).setShiftbuf zSyncMatch 0x550f0000).setTimcmp
            tSyncTrigger 0x100).configureIdle sync).setTimcmp tStateCheck 1)
          (show tIc ≠ tIcSecond by decide) hrange.1 (Nat.le_of_lt hrange.2) hfuel
        rw [heq, Option.bind_eq_bind, Option.bind_some]
        cases fits with
        | false => rfl
        | true => exact isSome_configureOp hfuel onOverload onExtHalt

theorem exists_init_of_fits (hpins : Mapped flexio)
    (hclock : flexio.computeClockRate = 480000000)
    (hic : 100 ≤ icTimeNs.toNat ∧ icTimeNs.toNat < 9000000000) (hicFits : FitsTimers icTimeNs)
    (hopFits : FitsTimers opTimeNs) (onOverload : OnOverload) (onExtHalt : OnExtHalt)
    (sync : Sync) :
    ∃ c', init flexio fuel icTimeNs opTimeNs onOverload onExtHalt sync c = some (true, c') := by
  obtain ⟨success, c', heq, h⟩ :=
    init_initialized (c := c) hop hfuel hpins hclock hic onOverload onExtHalt sync
  rw [h.success_iff.mpr ⟨hicFits, hopFits⟩] at heq
  exact ⟨c', heq⟩

/-- Long times are refused where no two timers can count them; nothing else is. -/
theorem init_timers (hpins : Mapped flexio) (hclock : flexio.computeClockRate = 480000000)
    (hic : 100 ≤ icTimeNs.toNat ∧ icTimeNs.toNat < 9000000000) (onOverload : OnOverload)
    (onExtHalt : OnExtHalt) (sync : Sync) :
    ∃ success c', init flexio fuel icTimeNs opTimeNs onOverload onExtHalt sync c =
        some (success, c') ∧
      (success = true ↔ FitsTimers icTimeNs ∧ FitsTimers opTimeNs) ∧
      (success = true →
        Counts tIc tIcSecond icTimeNs c' ∧ Counts tOp tOpSecond opTimeNs c') ∧
      SmallWrites c c' := by
  obtain ⟨success, c', heq, h⟩ :=
    init_initialized (c := c) hop hfuel hpins hclock hic onOverload onExtHalt sync
  exact ⟨success, c', heq, h.success_iff, fun hs => ⟨h.ic hs, h.op hs⟩, h.writes⟩

end Times

end Init

/-- The pins of the board, with the clock that the chosen settings give. -/
def board : FlexIOHandler where
  computeClockRate := 480000000
  mapIOPinToFlexPin pin :=
    if pin = pinModeIc then 4 else if pin = pinModeOp then 5
    else if pin = pinModeOverload then 10 else if pin = pinModeExthalt then 11
    else if pin = pinSyncClk then 8 else if pin = pinSyncId then 9 else 0xff

theorem mapped_board : Mapped board := by
  unfold Mapped
  decide

def afterReset : FlexIOControl where
  timcmp := fun _ => 0
  shiftbuf := fun _ => 0
  flexPins := []
  isInitialized := false
  isEnabled := false

theorem init_timers_default : ∃ c', init board 4320000001 defaultIcTime defaultOpTime .halt .ignore
    .none afterReset = some (true, c') := by
  obtain ⟨success, c', heq, hsuccess, -⟩ := init_timers (c := afterReset)
    (show 100 ≤ defaultOpTime.toNat ∧ defaultOpTime.toNat ≤ 9000000000 by decide)
    (show 4320000000 < 4320000001 by decide) mapped_board rfl
    (show 100 ≤ defaultIcTime.toNat ∧ defaultIcTime.toNat < 9000000000 by decide)
    .halt .ignore .none
  have hic : FitsTimers defaultIcTime := ⟨48000, 1, by decide, by decide, by decide, by decide⟩
  have hop : FitsTimers defaultOpTime := ⟨480, 1000, by decide, by decide, by decide, by decide⟩
  rw [hsuccess.mpr ⟨hic, hop⟩] at heq
  exact ⟨c', heq⟩

/-- Seconds that are counted in 32 bits but not by two timers of sixteen. -/
theorem not_fitsTimers_of_lt {timeNs : BitVec 64} (h : 65535 * 65535 + 10 < ticks timeNs) :
    ¬ FitsTimers timeNs := by
  rintro ⟨x, y, hx, hy, -, hnear⟩
  have hmul : x * y ≤ 65535 * 65535 := Nat.mul_le_mul (by omega) (by omega)
  omega

theorem init_of_almost_nine_seconds : ∃ c', init board 4320000001 8947800000 defaultOpTime .halt
    .ignore .none afterReset = some (false, c') := by
  obtain ⟨success, c', heq, h⟩ := init_initialized (c := afterReset)
    (show 100 ≤ defaultOpTime.toNat ∧ defaultOpTime.toNat ≤ 9000000000 by decide)
    (show 4320000000 < 4320000001 by decide) mapped_board rfl
    (show 100 ≤ (8947800000 : BitVec 64).toNat ∧ (8947800000 : BitVec 64).toNat < 9000000000 by decide)
    .halt .ignore .none
  have hnot : ¬ FitsTimers 8947800000 := not_fitsTimers_of_lt (by decide)
  have hfailed : success = false := by
    rw [← Bool.not_eq_true, h.success_iff]
    exact fun hfits => hnot hfits.1
  rw [hfailed] at heq
  exact ⟨c', heq⟩

end Lucidac.FlexIOControl
