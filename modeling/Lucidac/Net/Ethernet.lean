import Lucidac.Nvmconfig.Settings

/-!
# Addresses at the start of the network

Addresses of the user that count as invalid are not used.  The test adds up the bytes of an address
in one byte.
-/

namespace Lucidac

/-! ### Valid addresses -/

/-- `ip[0]`, `ip[1]`, ... -/
def ipBytes (ip : BitVec 32) : List Nat := [3, 2, 1, 0].map (byteAt ip.toNat)

/-- `mac[0]`, `mac[1]`, ... -/
def macBytes (mac : BitVec 48) : List Nat := [5, 4, 3, 2, 1, 0].map (byteAt mac.toNat)

/-- The sum of the bytes, in a `uint8_t`. -/
def byteSum (bytes : List Nat) : BitVec 8 := bytes.foldl (fun sum b => sum + BitVec.ofNat 8 b) 0

def validIp (ip : BitVec 32) : Bool := byteSum ((ipBytes ip).take 4) ≠ 0

/-- The loop of `valid` ends after four bytes here, too. -/
def validMac (mac : BitVec 48) : Bool := byteSum ((macBytes mac).take 4) ≠ 0

theorem foldl_add_ofNat (bytes : List Nat) (n : Nat) :
    bytes.foldl (fun sum b => sum + BitVec.ofNat 8 b) (BitVec.ofNat 8 n) =
      BitVec.ofNat 8 (n + bytes.sum) := by
  induction bytes generalizing n with
  | nil => rfl
  | cons b bytes ih =>
    rw [List.foldl_cons, ← BitVec.ofNat_add, ih, List.sum_cons, Nat.add_assoc]

theorem byteSum_eq_zero_iff (bytes : List Nat) : byteSum bytes = 0 ↔ 256 ∣ bytes.sum := by
  have hsum : byteSum bytes = BitVec.ofNat 8 bytes.sum := by
    rw [← Nat.zero_add bytes.sum, ← foldl_add_ofNat]
    rfl
  rw [hsum, Nat.dvd_iff_mod_eq_zero, ← BitVec.toNat_inj, BitVec.toNat_ofNat]
  rfl

theorem validIp_iff (ip : BitVec 32) : validIp ip = true ↔ ¬ 256 ∣ (ipBytes ip).sum := by
  rw [validIp, decide_eq_true_eq, ne_eq, byteSum_eq_zero_iff]
  rfl

theorem validMac_iff (mac : BitVec 48) :
    validMac mac = true ↔ ¬ 256 ∣ ((macBytes mac).take 4).sum := by
  rw [validMac, decide_eq_true_eq, ne_eq, byteSum_eq_zero_iff]

theorem ofBytes_of_zero {bytes : List Nat} (h : ∀ b ∈ bytes, b = 0) : ofBytes bytes = 0 := by
  induction bytes with
  | nil => rfl
  | cons b bytes ih =>
    rw [List.forall_mem_cons] at h
    rw [ofBytes_cons, ih h.2, h.1]
    simp

section

variable {w : Nat} {address : BitVec w} {bytes : List Nat}

private theorem exists_ne_zero_iff (hbytes : BitVec.ofNat w (ofBytes bytes) = address)
    (hzero : address = 0 → ∀ b ∈ bytes, b = 0) : (∃ b ∈ bytes, b ≠ 0) ↔ address ≠ 0 := by
  constructor
  · rintro ⟨b, hb, hne⟩ haddress
    exact hne (hzero haddress b hb)
  · intro hne
    by_contra hnone
    have hall : ∀ b ∈ bytes, b = 0 := fun b hb => by_contra fun h => hnone ⟨b, hb, h⟩
    rw [ofBytes_of_zero hall] at hbytes
    exact hne hbytes.symm

/-- A test that rejects the zero address is right on it and on what it accepts. -/
private theorem test_iff {valid : Bool} (hzero : address = 0 → valid = false) :
    (valid = true ↔ address ≠ 0) ↔ address = 0 ∨ valid = true := by
  constructor
  · intro htest
    by_cases h : address = 0
    · exact Or.inl h
    · exact Or.inr (htest.mpr h)
  · rintro (h | h)
    · exact iff_of_false (ne_true_of_eq_false (hzero h)) (not_not_intro h)
    · exact iff_of_true h fun haddress => ne_true_of_eq_false (hzero haddress) h

end

/-- An address has a byte that is not zero exactly if it is not the zero address. -/
theorem exists_ipBytes_ne_zero (ip : BitVec 32) : (∃ b ∈ ipBytes ip, b ≠ 0) ↔ ip ≠ 0 :=
  exists_ne_zero_iff (ofBytes_ip ip) fun h => h ▸ by decide

theorem exists_macBytes_ne_zero (mac : BitVec 48) : (∃ b ∈ macBytes mac, b ≠ 0) ↔ mac ≠ 0 :=
  exists_ne_zero_iff (ofBytes_mac mac) fun h => h ▸ by decide

theorem validIp_of_eq_zero {ip : BitVec 32} (h : ip = 0) : validIp ip = false := h ▸ by decide

theorem validMac_of_eq_zero {mac : BitVec 48} (h : mac = 0) : validMac mac = false := h ▸ by decide

theorem validIp_right_iff (ip : BitVec 32) :
    (validIp ip = true ↔ ∃ b ∈ ipBytes ip, b ≠ 0) ↔ ip = 0 ∨ ¬ 256 ∣ (ipBytes ip).sum := by
  rw [exists_ipBytes_ne_zero, ← validIp_iff]
  exact test_iff validIp_of_eq_zero

theorem validMac_right_iff (mac : BitVec 48) :
    (validMac mac = true ↔ ∃ b ∈ macBytes mac, b ≠ 0) ↔
      mac = 0 ∨ ¬ 256 ∣ ((macBytes mac).take 4).sum := by
  rw [exists_macBytes_ne_zero, ← validMac_iff]
  exact test_iff validMac_of_eq_zero

/-! ### Starting the network -/

namespace Nvmconfig

/-- What the network library reports while it is started. -/
structure EthernetOutcomes where
  dhcpStarted : Bool
  gotLocalIP : Bool
  staticStarted : Bool

inductive EthernetCall where
  | setMACAddress (mac : BitVec 48)
  | setHostname (hostname : String)
  | begin
  | waitForLocalIP (milliseconds : Nat)
  | beginStatic (ip mask gateway : BitVec 32)
  | setDnsServerIP (dns : BitVec 32)
  deriving DecidableEq

structure BeginIp where
  code : Int
  config : StartupConfig
  calls : List EthernetCall

namespace StartupConfig

section

variable (otp : BitVec 48) (outcomes : EthernetOutcomes) (c : StartupConfig)

/-- The addresses are only replaced together. -/
def recoverAddresses : StartupConfig :=
  if !validIp c.staticIpaddr || !validIp c.staticNetmask || !validIp c.staticGw then
    { c with
      staticIpaddr := (resetDefaults otp).staticIpaddr
      staticNetmask := (resetDefaults otp).staticNetmask
      staticGw := (resetDefaults otp).staticGw }
  else c

def recoverDns : StartupConfig :=
  if !validIp c.staticDns then { c with staticDns := (resetDefaults otp).staticDns } else c

/-- Without a custom address the permanent one stays in use. -/
def macCalls : List EthernetCall := if validMac c.mac then [.setMACAddress c.mac] else []

/-- The calls are made as well if the user has disabled the network, which is only logged. -/
def beginIp : BeginIp :=
  if c.enableDhcp then
    let calls := c.macCalls ++ [.setHostname (cString c.hostname), .begin]
    if !outcomes.dhcpStarted then ⟨1, c, calls⟩
    else
      let calls := calls ++ [.waitForLocalIP (10 * 1000)]
      if !outcomes.gotLocalIP then ⟨2, c, calls⟩ else ⟨0, c, calls⟩
  else
    let mac := c.macCalls
    let c := c.recoverAddresses otp
    let calls := mac ++ [.beginStatic c.staticIpaddr c.staticNetmask c.staticGw]
    if !outcomes.staticStarted then ⟨3, c, calls⟩
    else
      let c := c.recoverDns otp
      ⟨0, c, calls ++ [.setDnsServerIP c.staticDns]⟩

end

/-- The addresses of the user are used and stay as they are. -/
structure KeepsAddresses (c : StartupConfig) (started : BeginIp) : Prop where
  staticIpaddr : c.staticIpaddr ≠ 0 → started.config.staticIpaddr = c.staticIpaddr
  staticNetmask : c.staticNetmask ≠ 0 → started.config.staticNetmask = c.staticNetmask
  staticGw : c.staticGw ≠ 0 → started.config.staticGw = c.staticGw
  staticDns : c.staticDns ≠ 0 → started.config.staticDns = c.staticDns
  mac : c.mac ≠ 0 → .setMACAddress c.mac ∈ started.calls

section

variable (otp : BitVec 48) (outcomes : EthernetOutcomes) (c : StartupConfig)

/-- Every default passes its own check. -/
theorem valid_resetDefaults : ∀ ip ∈ [(resetDefaults otp).staticIpaddr,
    (resetDefaults otp).staticNetmask, (resetDefaults otp).staticGw, (resetDefaults otp).staticDns],
    validIp ip = true := by
  intro ip hip
  simp only [resetDefaults, List.mem_cons, List.not_mem_nil, or_false] at hip
  rcases hip with rfl | rfl | rfl | rfl <;> decide

def StaticValid : Prop :=
  ∀ ip ∈ [c.staticIpaddr, c.staticNetmask, c.staticGw], validIp ip = true

theorem staticValid_iff : c.StaticValid ↔ (!validIp c.staticIpaddr || !validIp c.staticNetmask ||
    !validIp c.staticGw) = false := by
  simp [StaticValid, and_assoc]

theorem recoverAddresses_of_valid {c : StartupConfig} (h : c.StaticValid) :
    c.recoverAddresses otp = c :=
  if_neg (ne_true_of_eq_false (c.staticValid_iff.mp h))

theorem recoverAddresses_of_not_valid {c : StartupConfig} (h : ¬ c.StaticValid) :
    c.recoverAddresses otp =
      { c with
        staticIpaddr := (resetDefaults otp).staticIpaddr
        staticNetmask := (resetDefaults otp).staticNetmask
        staticGw := (resetDefaults otp).staticGw } := by
  rw [staticValid_iff, Bool.not_eq_false] at h
  exact if_pos h

theorem staticValid_recoverAddresses : (c.recoverAddresses otp).StaticValid := by
  by_cases h : c.StaticValid
  · rwa [recoverAddresses_of_valid otp h]
  · rw [recoverAddresses_of_not_valid otp h]
    intro ip hip
    exact valid_resetDefaults otp ip (List.mem_append_left [_] hip)

theorem staticDns_recoverAddresses : (c.recoverAddresses otp).staticDns = c.staticDns := by
  rw [recoverAddresses]
  split <;> rfl

theorem recoverDns_eq : c.recoverDns otp =
    { c with staticDns := if validIp c.staticDns = true then c.staticDns
        else (resetDefaults otp).staticDns } := by
  rw [recoverDns]
  cases validIp c.staticDns <;> rfl

/-! ### What becomes of the addresses -/

theorem config_beginIp_dhcp (h : c.enableDhcp = true) : (c.beginIp otp outcomes).config = c := by
  rw [beginIp, if_pos h]
  dsimp only
  split
  · rfl
  · split <;> rfl

theorem config_beginIp_static (h : c.enableDhcp = false) : (c.beginIp otp outcomes).config =
    { c.recoverAddresses otp with
      staticDns := if outcomes.staticStarted = true then (c.recoverDns otp).staticDns
        else c.staticDns } := by
  rw [beginIp, if_neg (ne_true_of_eq_false h)]
  dsimp only
  have hdns := c.staticDns_recoverAddresses otp
  cases outcomes.staticStarted with
  | false => exact congrArg (fun dns => { c.recoverAddresses otp with staticDns := dns }) hdns
  | true => simp [recoverDns_eq, hdns]

theorem setMACAddress_mem_macCalls (mac : BitVec 48) :
    .setMACAddress mac ∈ c.macCalls ↔ validMac c.mac = true ∧ mac = c.mac := by
  rw [macCalls]
  split
  · rename_i h
    simp [h]
  · rename_i h
    simp [h]

theorem setMACAddress_mem (mac : BitVec 48) :
    .setMACAddress mac ∈ (c.beginIp otp outcomes).calls ↔ validMac c.mac = true ∧ mac = c.mac := by
  rw [← setMACAddress_mem_macCalls, beginIp]
  split
  · dsimp only
    split
    · simp
    · split <;> simp
  · dsimp only
    split <;> simp

theorem valid_of_beginStatic_mem {ip mask gateway : BitVec 32}
    (h : .beginStatic ip mask gateway ∈ (c.beginIp otp outcomes).calls) :
    ∀ address ∈ [ip, mask, gateway], validIp address = true := by
  have hmac : .beginStatic ip mask gateway ∉ c.macCalls := by
    rw [macCalls]
    split <;> simp
  rw [beginIp] at h
  split at h
  · dsimp only at h
    split at h
    · simp [hmac] at h
    · split at h <;> simp [hmac] at h
  · have hused : ip = (c.recoverAddresses otp).staticIpaddr ∧
        mask = (c.recoverAddresses otp).staticNetmask ∧
        gateway = (c.recoverAddresses otp).staticGw := by
      dsimp only at h
      split at h <;> simpa [hmac] using h
    obtain ⟨rfl, rfl, rfl⟩ := hused
    exact c.staticValid_recoverAddresses otp

/-- The three static addresses are kept if all are valid, and otherwise if nothing changes. -/
theorem recoverAddresses_keeps_iff :
    ((c.staticIpaddr ≠ 0 → (c.recoverAddresses otp).staticIpaddr = c.staticIpaddr) ∧
      (c.staticNetmask ≠ 0 → (c.recoverAddresses otp).staticNetmask = c.staticNetmask) ∧
      (c.staticGw ≠ 0 → (c.recoverAddresses otp).staticGw = c.staticGw)) ↔
    c.StaticValid ∨ (c.staticIpaddr = 0 ∨ c.staticIpaddr = (resetDefaults otp).staticIpaddr) ∧
      (c.staticNetmask = 0 ∨ c.staticNetmask = (resetDefaults otp).staticNetmask) ∧
      (c.staticGw = 0 ∨ c.staticGw = (resetDefaults otp).staticGw) := by
  by_cases h : c.StaticValid
  · rw [recoverAddresses_of_valid otp h]
    exact iff_of_true ⟨fun _ => rfl, fun _ => rfl, fun _ => rfl⟩ (Or.inl h)
  · have hzero : ∀ {ip default : BitVec 32}, (ip ≠ 0 → default = ip) ↔ ip = 0 ∨ ip = default := by
      intro ip default
      rw [← not_imp_not, not_not, eq_comm (a := ip) (b := default), or_iff_not_imp_right]
    rw [recoverAddresses_of_not_valid otp h, or_iff_right h]
    exact and_congr hzero (and_congr hzero hzero)

theorem recoverDns_keeps_iff :
    (c.staticDns ≠ 0 → (c.recoverDns otp).staticDns = c.staticDns) ↔
      c.staticDns = 0 ∨ validIp c.staticDns = true := by
  rw [recoverDns_eq, or_iff_not_imp_left]
  apply imp_congr_right
  intro _
  dsimp only
  constructor
  · intro hkept
    rw [← hkept]
    split
    · assumption
    · exact valid_resetDefaults otp _ (by simp)
  · exact fun h => if_pos h

theorem staticDns_keeps_iff (h : c.enableDhcp = false) :
    (c.staticDns ≠ 0 → (c.beginIp otp outcomes).config.staticDns = c.staticDns) ↔
      outcomes.staticStarted = false ∨ c.staticDns = 0 ∨ validIp c.staticDns = true := by
  rw [config_beginIp_static otp outcomes c h]
  cases outcomes.staticStarted with
  | false => exact iff_of_true (fun _ => rfl) (Or.inl rfl)
  | true => exact (c.recoverDns_keeps_iff otp).trans (or_iff_right Bool.false_ne_true.symm).symm

theorem mac_keeps_iff : (c.mac ≠ 0 → .setMACAddress c.mac ∈ (c.beginIp otp outcomes).calls) ↔
    c.mac = 0 ∨ validMac c.mac = true := by
  rw [setMACAddress_mem, and_iff_left rfl, or_iff_not_imp_left]

/-- When the addresses of the user are kept. -/
theorem keepsAddresses_iff : KeepsAddresses c (c.beginIp otp outcomes) ↔
    (c.mac = 0 ∨ validMac c.mac = true) ∧
    (c.enableDhcp = true ∨
      (c.StaticValid ∨ (c.staticIpaddr = 0 ∨ c.staticIpaddr = (resetDefaults otp).staticIpaddr) ∧
        (c.staticNetmask = 0 ∨ c.staticNetmask = (resetDefaults otp).staticNetmask) ∧
        (c.staticGw = 0 ∨ c.staticGw = (resetDefaults otp).staticGw)) ∧
      (outcomes.staticStarted = false ∨ c.staticDns = 0 ∨ validIp c.staticDns = true)) := by
  rw [← mac_keeps_iff otp outcomes]
  cases hdhcp : c.enableDhcp with
  | true =>
    have hconfig := c.config_beginIp_dhcp otp outcomes hdhcp
    constructor
    · exact fun h => ⟨h.mac, Or.inl rfl⟩
    · rintro ⟨hmac, -⟩
      exact ⟨fun _ => by rw [hconfig], fun _ => by rw [hconfig], fun _ => by rw [hconfig],
        fun _ => by rw [hconfig], hmac⟩
  | false =>
    have hconfig := c.config_beginIp_static otp outcomes hdhcp
    have hip := congrArg StartupConfig.staticIpaddr hconfig
    have hmask := congrArg StartupConfig.staticNetmask hconfig
    have hgw := congrArg StartupConfig.staticGw hconfig
    rw [or_iff_right Bool.false_ne_true, ← recoverAddresses_keeps_iff,
      ← staticDns_keeps_iff otp outcomes c hdhcp]
    constructor
    · exact fun h => ⟨h.mac, ⟨fun hne => hip.symm.trans (h.staticIpaddr hne),
        fun hne => hmask.symm.trans (h.staticNetmask hne),
        fun hne => hgw.symm.trans (h.staticGw hne)⟩, h.staticDns⟩
    · rintro ⟨hmac, ⟨hkeptIp, hkeptMask, hkeptGw⟩, hdns⟩
      exact ⟨fun hne => hip.trans (hkeptIp hne), fun hne => hmask.trans (hkeptMask hne),
        fun hne => hgw.trans (hkeptGw hne), hdns, hmac⟩

/-- If none of the three static addresses is zero, they are kept exactly if all are valid. -/
theorem keepsAddresses_iff_of_ne_zero (hip : c.staticIpaddr ≠ 0) (hmask : c.staticNetmask ≠ 0)
    (hgw : c.staticGw ≠ 0) : KeepsAddresses c (c.beginIp otp outcomes) ↔
    (c.mac = 0 ∨ validMac c.mac = true) ∧
    (c.enableDhcp = true ∨ c.StaticValid ∧
      (outcomes.staticStarted = false ∨ c.staticDns = 0 ∨ validIp c.staticDns = true)) := by
  have hdefault : (c.staticIpaddr = (resetDefaults otp).staticIpaddr ∧
      c.staticNetmask = (resetDefaults otp).staticNetmask ∧
      c.staticGw = (resetDefaults otp).staticGw) → c.StaticValid := by
    rintro ⟨hip, hmask, hgw⟩ ip hmem
    rw [hip, hmask, hgw] at hmem
    exact valid_resetDefaults otp ip (List.mem_append_left [_] hmem)
  rw [keepsAddresses_iff, or_iff_right hip, or_iff_right hmask, or_iff_right hgw,
    or_iff_left_of_imp hdefault]

end

end StartupConfig

/-- The test is right on the zero address, and on the addresses whose bytes do not add up to a
multiple of 256; of a MAC address only the first four bytes count.  Which addresses of the user are
kept at the start of the network depends on the same sums. -/
theorem valid_beginIp_iff (ip : BitVec 32) (mac otp : BitVec 48) (outcomes : EthernetOutcomes)
    (c : StartupConfig) :
    ((validIp ip = true ↔ ∃ b ∈ ipBytes ip, b ≠ 0) ↔ ip = 0 ∨ ¬ 256 ∣ (ipBytes ip).sum) ∧
    ((validMac mac = true ↔ ∃ b ∈ macBytes mac, b ≠ 0) ↔
      mac = 0 ∨ ¬ 256 ∣ ((macBytes mac).take 4).sum) ∧
    (c.KeepsAddresses (c.beginIp otp outcomes) ↔
      (c.mac = 0 ∨ ¬ 256 ∣ ((macBytes c.mac).take 4).sum) ∧
      (c.enableDhcp = true ∨
        ((∀ ip ∈ [c.staticIpaddr, c.staticNetmask, c.staticGw], ¬ 256 ∣ (ipBytes ip).sum) ∨
          (c.staticIpaddr = 0 ∨ c.staticIpaddr = (StartupConfig.resetDefaults otp).staticIpaddr) ∧
          (c.staticNetmask = 0 ∨
            c.staticNetmask = (StartupConfig.resetDefaults otp).staticNetmask) ∧
          (c.staticGw = 0 ∨ c.staticGw = (StartupConfig.resetDefaults otp).staticGw)) ∧
        (outcomes.staticStarted = false ∨ c.staticDns = 0 ∨
          ¬ 256 ∣ (ipBytes c.staticDns).sum))) := by
  refine ⟨validIp_right_iff ip, validMac_right_iff mac, ?_⟩
  simp only [← validIp_iff, ← validMac_iff]
  exact c.keepsAddresses_iff otp outcomes

/-- The static address 10.0.0.246 behind the gateway 10.0.0.1, and the MAC address
00-00-00-00-00-01. -/
def collidingConfig : StartupConfig :=
  { StartupConfig.resetDefaults 0 with
    enableDhcp := false
    mac := 1
    staticIpaddr := 0x0A0000F6
    staticGw := 0x0A000001 }

theorem valid_rejects_addresses :
    ¬ (validIp 0x0A0000F6 = true ↔ ∃ b ∈ ipBytes 0x0A0000F6, b ≠ 0) ∧
    ¬ (validMac 1 = true ↔ ∃ b ∈ macBytes 1, b ≠ 0) ∧
    (collidingConfig.beginIp 0 ⟨true, true, true⟩).config.staticIpaddr = 0xC0A80164 ∧
    .setMACAddress 1 ∉ (collidingConfig.beginIp 0 ⟨true, true, true⟩).calls ∧
    ¬ collidingConfig.KeepsAddresses (collidingConfig.beginIp 0 ⟨true, true, true⟩) := by
  have hip : (collidingConfig.beginIp 0 ⟨true, true, true⟩).config.staticIpaddr = 0xC0A80164 := by
    decide
  refine ⟨by decide, by decide, hip, by decide, fun h => ?_⟩
  have hkept := h.staticIpaddr (by decide)
  rw [hip] at hkept
  revert hkept
  decide

end Nvmconfig

end Lucidac
