import Lucidac.Net.LoginHistory

/-!
# Locking the device

One user at a time holds the device, for three minutes at most.  An expired lock is noticed by the
next `lock_acquire` only.  Real time is a number of milliseconds, and `millis` counts them in 32
bits.
-/

namespace Lucidac.Net

def millis (time : Nat) : BitVec 32 := BitVec.ofNat 32 time

/-- `utils::duration` -/
structure Duration where
  lastTime : BitVec 32

def Duration.expired (duration : Duration) (now : Nat) (period : BitVec 32) : Bool :=
  decide (period ≤ millis now - duration.lastTime)

structure DeviceLock where
  holder : String
  lockedAt : Duration

namespace DeviceLock

def maxLockDuration : BitVec 32 := 3 * 60 * 1000

def initial (bootedAt : Nat) : DeviceLock := ⟨"", ⟨millis bootedAt⟩⟩

def check (lock : DeviceLock) (now : Nat) : DeviceLock :=
  if lock.lockedAt.expired now maxLockDuration then { lock with holder := "" } else lock

def isLocked (lock : DeviceLock) (now : Nat) : Bool × DeviceLock :=
  (!(lock.check now).holder.isEmpty, lock.check now)

def forceUnlock (lock : DeviceLock) : DeviceLock := { lock with holder := "" }

def enableLock (_ : DeviceLock) (user : String) (now : Nat) : DeviceLock := ⟨user, ⟨millis now⟩⟩

end DeviceLock

/-- The code, the error text and the lock afterwards. -/
structure LockResult where
  code : Int
  error : Option String
  lock : DeviceLock

/-- The clock is read for the expiry and, if the lock is free, once more to start the lock. -/
def lockAcquire (context : AuthentificationContext) (checkedAt lockedAt : Nat) (lock : DeviceLock) :
    LockResult :=
  let (locked, lock) := lock.isLocked checkedAt
  if locked then ⟨1, some "Computer is already locked", lock⟩
  else ⟨0, none, lock.enableLock context.user lockedAt⟩

def lockRelease (g : Gatekeeper) (context : AuthentificationContext) (lock : DeviceLock) :
    LockResult :=
  if !g.enableUsers || context.user == lock.holder || context.canDo g .requiresAdmin then
    ⟨0, none, lock.forceUnlock⟩
  else ⟨1, none, lock⟩

/-- A message on some context, with the times at which the clock is read for it. -/
structure Request extends Exchange where
  context : AuthentificationContext
  checkedAt : Nat
  lockedAt : Nat

namespace Request

variable (lib : Platform.JsonLibrary)

def handler? (r : Request) : Option RegistryEntry :=
  (r.toExchange.handle lib registry r.context).ran

def serve (r : Request) (lock : DeviceLock) : Option Int × DeviceLock :=
  match r.handler? lib with
  | none => (none, lock)
  | some entry =>
    match entry.handler with
    | .lockAcquire =>
      let result := lockAcquire r.context r.checkedAt r.lockedAt lock
      (some (entry.error result.code), result.lock)
    | .lockRelease =>
      let result := lockRelease r.gatekeeper r.context lock
      (some (entry.error result.code), result.lock)
    | .login | .other => (none, lock)

def Reaches (r : Request) (handler : Handler) : Prop :=
  (r.handler? lib).map RegistryEntry.handler = some handler

instance (r : Request) (handler : Handler) : Decidable (r.Reaches lib handler) :=
  inferInstanceAs (Decidable (_ = _))

def Granted (r : Request) (lock : DeviceLock) : Prop :=
  r.Reaches lib .lockAcquire ∧ (r.serve lib lock).1 = some 0

def Releases (r : Request) (lock : DeviceLock) : Prop :=
  r.Reaches lib .lockRelease ∧ (r.serve lib lock).1 = some 0

/-- The user holds the lock that the other request was granted, or is the admin. -/
def MayRelease (r x : Request) : Prop :=
  r.context.name = x.context.name ∨ r.context.name = UserPasswordAuthentification.admin

end Request

def lockAfter (lib : Platform.JsonLibrary) (lock : DeviceLock) (requests : List Request) :
    DeviceLock :=
  requests.foldl (fun lock r => (r.serve lib lock).2) lock

/-- A user who may do so releases the lock of the granted request, starting from that lock. -/
def ReleasedIn (lib : Platform.JsonLibrary) (lock : DeviceLock) (x : Request)
    (requests : List Request) : Prop :=
  ∃ (before after : List Request) (r : Request), requests = before ++ r :: after ∧
    r.Releases lib (lockAfter lib lock before) ∧ r.MayRelease x

/-- Time passes while a message is handled and between two messages. -/
def InTime (requests : List Request) : Prop :=
  (∀ r ∈ requests, r.checkedAt ≤ r.lockedAt) ∧
    requests.Pairwise fun a b => a.lockedAt ≤ b.checkedAt

/-- The latest request that was granted the lock. -/
def LatestGrant (lib : Platform.JsonLibrary) (lock : DeviceLock) (requests : List Request)
    (x : Request) : Prop :=
  ∃ before after : List Request, requests = before ++ x :: after ∧
    x.Granted lib (lockAfter lib lock before) ∧
    ∀ (b a : List Request) (r : Request), after = b ++ r :: a →
      ¬ r.Granted lib (lockAfter lib lock (before ++ x :: b))

/-- The lock excludes other users: until the user of a grant or the admin releases the lock or three
minutes have passed, every other `lock_acquire` is refused, and a release by anyone but the holder
and the admin changes nothing. -/
structure Exclusive (lib : Platform.JsonLibrary) (lock : DeviceLock) (requests : List Request) :
    Prop where
  granted_after : ∀ (before between after : List Request) (x e : Request),
    requests = before ++ x :: (between ++ e :: after) → x.Granted lib (lockAfter lib lock before) →
      e.Granted lib (lockAfter lib lock (before ++ x :: between)) →
      ReleasedIn lib (lockAfter lib lock (before ++ [x])) x between ∨
        x.lockedAt + 180000 ≤ e.checkedAt
  holder_latest : ∀ before after : List Request, requests = before ++ after →
    (lockAfter lib lock before).holder = "" ∨
      ∃ x, LatestGrant lib lock before x ∧ (lockAfter lib lock before).holder = x.context.name
  release_ignored : ∀ (before after : List Request) (r : Request),
    requests = before ++ r :: after → r.Reaches lib .lockRelease →
      r.context.name ≠ (lockAfter lib lock before).holder →
      r.context.name ≠ UserPasswordAuthentification.admin →
      lockAfter lib lock (before ++ [r]) = lockAfter lib lock before
  acquire_refused : ∀ (before between after : List Request) (x e : Request),
    requests = before ++ x :: (between ++ e :: after) → x.Granted lib (lockAfter lib lock before) →
      ¬ ReleasedIn lib (lockAfter lib lock (before ++ [x])) x between →
      e.checkedAt < x.lockedAt + 180000 → e.Reaches lib .lockAcquire →
      (e.serve lib (lockAfter lib lock (before ++ x :: between))).1 = some 3201

/-! ### The clock -/

theorem Duration.expired_eq_false {start now : Nat} (hstart : start ≤ now)
    (hnow : now < start + 180000) :
    (⟨millis start⟩ : Duration).expired now DeviceLock.maxLockDuration = false := by
  have hperiod : DeviceLock.maxLockDuration.toNat = 180000 := by decide
  have helapsed : (millis now - millis start).toNat < 180000 := by
    simp only [millis, BitVec.toNat_sub, BitVec.toNat_ofNat]
    omega
  rw [Duration.expired, decide_eq_false_iff_not, BitVec.le_def, hperiod]
  exact Nat.not_le_of_lt helapsed

/-! ### What one message does to the lock -/

section Serve

variable {lib : Platform.JsonLibrary} {r x : Request} {lock : DeviceLock}

theorem registry_lockAcquire : ∀ p ∈ registry, p.2.handler = .lockAcquire →
    p.2 = ⟨3200, .lockAcquire, .requiresLogin⟩ := by
  decide

theorem registry_lockRelease : ∀ p ∈ registry, p.2.handler = .lockRelease →
    p.2 = ⟨3300, .lockRelease, .requiresLogin⟩ := by
  decide

theorem Request.reaches_iff {handler : Handler} :
    r.Reaches lib handler ↔ ∃ entry, r.handler? lib = some entry ∧ entry.handler = handler := by
  rw [Request.Reaches, Option.map_eq_some_iff]

theorem Request.exists_mem_registry {entry : RegistryEntry} (h : r.handler? lib = some entry) :
    (∃ type, (type, entry) ∈ registry) ∧ r.context.canDo r.gatekeeper entry.clearance = true := by
  obtain ⟨hnone, _⟩ | ⟨found, hlookup, hcan, hran, _⟩ :=
    handle_cases lib registry r.toExchange r.context
  · rw [Request.handler?, hnone] at h
    cases h
  · rw [Request.handler?, hran] at h
    cases h
    obtain ⟨l₁, l₂, hl, _⟩ := List.lookup_eq_some_iff.mp hlookup
    refine ⟨⟨msgType lib r.envelopeIn, ?_⟩, hcan⟩
    rw [hl]
    simp

theorem Request.handler?_of_reaches {handler : Handler} {entry : RegistryEntry}
    (hregistry : ∀ p ∈ registry, p.2.handler = handler → p.2 = entry)
    (h : r.Reaches lib handler) : r.handler? lib = some entry := by
  obtain ⟨found, hfound, hhandler⟩ := Request.reaches_iff.mp h
  obtain ⟨type, htype⟩ := (Request.exists_mem_registry hfound).1
  rw [hfound]
  exact congrArg some (hregistry _ htype hhandler)

theorem Request.name_ne_empty (henabled : r.Enabled)
    (h : r.Reaches lib .lockAcquire ∨ r.Reaches lib .lockRelease) : r.context.name ≠ "" := by
  have hcan : r.context.canDo r.gatekeeper .requiresLogin = true := by
    rcases h with h | h
    · exact (Request.exists_mem_registry (Request.handler?_of_reaches registry_lockAcquire h)).2
    · exact (Request.exists_mem_registry (Request.handler?_of_reaches registry_lockRelease h)).2
  rw [canDo_of_enabled henabled.1 henabled.2] at hcan
  simpa [UserPasswordAuthentification.canDo] using hcan

theorem AuthentificationContext.user_eq {context : AuthentificationContext}
    (h : context.name ≠ "") : context.user = context.name := by
  rw [AuthentificationContext.user, if_neg (by simpa using h)]

/-- The lock that the granted request leaves behind. -/
def Request.heldLock (x : Request) : DeviceLock := ⟨x.context.name, ⟨millis x.lockedAt⟩⟩

theorem Request.heldLock_holder (x : Request) : x.heldLock.holder = x.context.name := rfl

variable (lock) in
theorem Request.serve_acquire (henabled : r.Enabled) (h : r.Reaches lib .lockAcquire) :
    r.serve lib lock =
      if (lock.check r.checkedAt).holder = "" then (some 0, r.heldLock)
      else (some 3201, lock.check r.checkedAt) := by
  have huser := AuthentificationContext.user_eq (r.name_ne_empty henabled (Or.inl h))
  simp only [Request.serve, Request.handler?_of_reaches registry_lockAcquire h, lockAcquire,
    DeviceLock.isLocked, DeviceLock.enableLock, huser]
  by_cases hfree : (lock.check r.checkedAt).holder = ""
  · rw [if_pos hfree, hfree]
    rfl
  · rw [if_neg hfree, if_pos (by simpa using hfree)]
    rfl

variable (lock) in
theorem Request.serve_release (henabled : r.Enabled) (h : r.Reaches lib .lockRelease) :
    r.serve lib lock =
      if r.context.name = lock.holder ∨ r.context.name = UserPasswordAuthentification.admin then
        (some 0, lock.forceUnlock)
      else (some 3301, lock) := by
  have huser := AuthentificationContext.user_eq (r.name_ne_empty henabled (Or.inr h))
  simp only [Request.serve, Request.handler?_of_reaches registry_lockRelease h, lockRelease, huser,
    canDo_of_enabled henabled.1 henabled.2, henabled.2, UserPasswordAuthentification.canDo,
    Bool.not_true, Bool.false_or, Bool.or_eq_true, beq_iff_eq]
  by_cases hmay : r.context.name = lock.holder ∨
      r.context.name = UserPasswordAuthentification.admin
  · rw [if_pos hmay, if_pos hmay]
    rfl
  · rw [if_neg hmay, if_neg hmay]
    rfl

theorem Request.serve_other (hacquire : ¬ r.Reaches lib .lockAcquire)
    (hrelease : ¬ r.Reaches lib .lockRelease) : r.serve lib lock = (none, lock) := by
  rw [Request.reaches_iff] at hacquire hrelease
  rw [Request.serve]
  cases hentry : r.handler? lib with
  | none => rfl
  | some entry =>
    dsimp only
    cases hhandler : entry.handler with
    | login => rfl
    | lockAcquire => exact absurd ⟨entry, hentry, hhandler⟩ hacquire
    | lockRelease => exact absurd ⟨entry, hentry, hhandler⟩ hrelease
    | other => rfl

/-- What a message that is not granted the lock can do: nothing, or leave the lock free. -/
theorem Request.serve_holder (henabled : r.Enabled) (h : ¬ r.Granted lib lock) :
    (r.serve lib lock).2.holder = lock.holder ∨ (r.serve lib lock).2.holder = "" := by
  by_cases hacquire : r.Reaches lib .lockAcquire
  · have hserve := Request.serve_acquire lock henabled hacquire
    by_cases hfree : (lock.check r.checkedAt).holder = ""
    · rw [if_pos hfree] at hserve
      exact absurd ⟨hacquire, by rw [hserve]⟩ h
    · rw [hserve, if_neg hfree, DeviceLock.check]
      split
      · exact Or.inr rfl
      · exact Or.inl rfl
  by_cases hrelease : r.Reaches lib .lockRelease
  · rw [Request.serve_release _ henabled hrelease]
    split
    · exact Or.inr rfl
    · exact Or.inl rfl
  · rw [Request.serve_other hacquire hrelease]
    exact Or.inl rfl

theorem Request.serve_of_granted (henabled : r.Enabled) (h : r.Granted lib lock) :
    (r.serve lib lock).2 = r.heldLock := by
  obtain ⟨hacquire, hcode⟩ := h
  rw [Request.serve_acquire _ henabled hacquire] at hcode ⊢
  by_cases hfree : (lock.check r.checkedAt).holder = ""
  · rw [if_pos hfree]
  · rw [if_neg hfree] at hcode
    cases hcode

/-- Within three minutes the lock of a granted request survives every message but a release by its
user or by the admin. -/
theorem Request.serve_heldLock (henabled : r.Enabled) (hname : x.context.name ≠ "")
    (hstart : x.lockedAt ≤ r.checkedAt) (hnow : r.checkedAt < x.lockedAt + 180000)
    (hrelease : ¬ (r.Releases lib x.heldLock ∧ r.MayRelease x)) :
    (r.serve lib x.heldLock).2 = x.heldLock ∧
      (r.Reaches lib .lockAcquire → (r.serve lib x.heldLock).1 = some 3201) := by
  have hcheck : x.heldLock.check r.checkedAt = x.heldLock := by
    rw [DeviceLock.check, Request.heldLock, Duration.expired_eq_false hstart hnow]
    rfl
  by_cases hacquire : r.Reaches lib .lockAcquire
  · rw [Request.serve_acquire _ henabled hacquire, hcheck, Request.heldLock_holder, if_neg hname]
    exact ⟨rfl, fun _ => rfl⟩
  refine ⟨?_, fun h => absurd h hacquire⟩
  by_cases hreaches : r.Reaches lib .lockRelease
  · have hserve := Request.serve_release x.heldLock henabled hreaches
    rw [Request.heldLock_holder] at hserve
    by_cases hmay : r.context.name = x.context.name ∨
        r.context.name = UserPasswordAuthentification.admin
    · rw [if_pos hmay] at hserve
      exact absurd ⟨⟨hreaches, by rw [hserve]⟩, hmay⟩ hrelease
    · rw [hserve, if_neg hmay]
  · rw [Request.serve_other hacquire hreaches]

end Serve

/-! ### Whole runs -/

section Runs

variable {lib : Platform.JsonLibrary} {x : Request} {lock : DeviceLock}

theorem lockAfter_append (before after : List Request) :
    lockAfter lib lock (before ++ after) = lockAfter lib (lockAfter lib lock before) after :=
  List.foldl_append ..

theorem lockAfter_cons (r : Request) (after : List Request) :
    lockAfter lib lock (r :: after) = lockAfter lib (r.serve lib lock).2 after := rfl

theorem lockAfter_heldLock (hname : x.context.name ≠ "") (between : List Request)
    (henabled : ∀ r ∈ between, r.Enabled)
    (htime : ∀ r ∈ between, x.lockedAt ≤ r.checkedAt ∧ r.checkedAt < x.lockedAt + 180000)
    (hrelease : ¬ ReleasedIn lib x.heldLock x between) :
    lockAfter lib x.heldLock between = x.heldLock := by
  induction between using List.reverseRecOn with
  | nil => rfl
  | append_singleton between r ih =>
    have hheld : lockAfter lib x.heldLock between = x.heldLock := by
      apply ih (fun s hs => henabled s (List.mem_append_left _ hs))
        (fun s hs => htime s (List.mem_append_left _ hs))
      rintro ⟨before, after, s, rfl, hs⟩
      exact hrelease ⟨before, after ++ [r], s, by simp, hs⟩
    obtain ⟨hstart, hnow⟩ := htime r (by simp)
    rw [lockAfter_append, hheld, lockAfter_cons]
    apply (Request.serve_heldLock (henabled r (by simp)) hname hstart hnow _).1
    rintro ⟨hreleases, hmay⟩
    exact hrelease ⟨between, [], r, rfl, hheld.symm ▸ hreleases, hmay⟩

theorem acquire_refused {before between after : List Request} {e : Request}
    (henabled : ∀ r ∈ before ++ x :: (between ++ e :: after), r.Enabled)
    (htime : InTime (before ++ x :: (between ++ e :: after)))
    (hgranted : x.Granted lib (lockAfter lib lock before))
    (hrelease : ¬ ReleasedIn lib (lockAfter lib lock (before ++ [x])) x between)
    (hnow : e.checkedAt < x.lockedAt + 180000) (hreaches : e.Reaches lib .lockAcquire) :
    (e.serve lib (lockAfter lib lock (before ++ x :: between))).1 = some 3201 := by
  have hx : x.Enabled := henabled x (by simp)
  have hname : x.context.name ≠ "" := x.name_ne_empty hx (Or.inl hgranted.1)
  have hheld : lockAfter lib lock (before ++ [x]) = x.heldLock := by
    rw [lockAfter_append, lockAfter_cons, Request.serve_of_granted hx hgranted]
    rfl
  -- the times of the messages between the grant and `e`
  obtain ⟨hown, hordered⟩ := htime
  obtain ⟨_, hordered, _⟩ := List.pairwise_append.mp hordered
  obtain ⟨hafter, hordered⟩ := List.pairwise_cons.mp hordered
  obtain ⟨_, _, hbetween⟩ := List.pairwise_append.mp hordered
  have htimes : ∀ r ∈ between, x.lockedAt ≤ r.checkedAt ∧ r.checkedAt < x.lockedAt + 180000 := by
    intro r hr
    have hstart := hafter r (by simp [hr])
    have hduring := hown r (by simp [hr])
    have hend := hbetween r hr e (by simp)
    omega
  rw [hheld] at hrelease
  have hkept : lockAfter lib lock (before ++ x :: between) = x.heldLock := by
    rw [List.append_cons, lockAfter_append, hheld]
    exact lockAfter_heldLock hname between (fun r hr => henabled r (by simp [hr])) htimes hrelease
  rw [hkept]
  apply (Request.serve_heldLock (henabled e (by simp)) hname (hafter e (by simp)) hnow _).2 hreaches
  -- `e` is an acquire, so it is not a release
  rintro ⟨⟨hreleases, _⟩, _⟩
  rw [Request.Reaches, hreaches] at hreleases
  cases hreleases

/-- The lock is free or held by the user that it was granted to last. -/
theorem holder_eq_latest (hfree : lock.holder = "") (requests : List Request)
    (henabled : ∀ r ∈ requests, r.Enabled) :
    (lockAfter lib lock requests).holder = "" ∨
      ∃ x, LatestGrant lib lock requests x ∧
        (lockAfter lib lock requests).holder = x.context.name := by
  induction requests using List.reverseRecOn with
  | nil => exact Or.inl hfree
  | append_singleton requests r ih =>
    rw [lockAfter_append, lockAfter_cons]
    have hr := henabled r (by simp)
    by_cases hgranted : r.Granted lib (lockAfter lib lock requests)
    · refine Or.inr ⟨r, ⟨requests, [], rfl, hgranted, by simp⟩, ?_⟩
      rw [Request.serve_of_granted hr hgranted]
      rfl
    obtain hsame | hempty := Request.serve_holder hr hgranted
    · obtain hnone | ⟨x, ⟨before, after, rfl, hx, hlatest⟩, hholder⟩ :=
        ih fun s hs => henabled s (List.mem_append_left _ hs)
      · exact Or.inl (hsame.trans hnone)
      · refine Or.inr ⟨x, ⟨before, after ++ [r], by simp, hx, ?_⟩, hsame.trans hholder⟩
        intro b a s hsplit
        obtain rfl | ⟨a, last, rfl⟩ := List.eq_nil_or_concat a
        · obtain ⟨rfl, hlast⟩ := List.append_inj' hsplit rfl
          cases hlast
          exact hgranted
        · rw [List.concat_eq_append, ← List.cons_append, ← List.append_assoc] at hsplit
          exact hlatest b a s (List.append_inj' hsplit rfl).1
    · exact Or.inl hempty

end Runs

/-- Mutual exclusion, for every order of messages and however often the clock wraps. -/
theorem device_lock_exclusive (lib : Platform.JsonLibrary) (bootedAt : Nat)
    (requests : List Request) (henabled : ∀ r ∈ requests, r.Enabled) (htime : InTime requests) :
    Exclusive lib (.initial bootedAt) requests where
  granted_after := by
    intro before between after x e hsplit hgranted hnext
    by_contra hcontra
    rw [not_or, Nat.not_le] at hcontra
    have hcode := acquire_refused (hsplit ▸ henabled) (hsplit ▸ htime) hgranted hcontra.1 hcontra.2
      hnext.1
    rw [hnext.2] at hcode
    cases hcode
  holder_latest := by
    intro before after hsplit
    apply holder_eq_latest rfl
    intro r hr
    exact henabled r (hsplit ▸ List.mem_append_left _ hr)
  release_ignored := by
    intro before after r hsplit hreaches hholder hadmin
    have hr : r.Enabled := henabled r (by simp [hsplit])
    rw [lockAfter_append, lockAfter_cons, Request.serve_release _ hr hreaches,
      if_neg (not_or.mpr ⟨hholder, hadmin⟩)]
    rfl
  acquire_refused := by
    intro before between after x e hsplit hgranted hrelease hnow hreaches
    exact acquire_refused (hsplit ▸ henabled) (hsplit ▸ htime) hgranted hrelease hnow hreaches

def acquireBy (user : String) (checkedAt lockedAt : Nat) : Request :=
  ⟨⟨hardened, requestEnvelope "lock_acquire"⟩, ⟨user⟩, checkedAt, lockedAt⟩

/-- The clock wraps while the default user holds the lock, and the admin is refused. -/
theorem refused_while_clock_wraps :
    (acquireBy "user" 4294967000 4294967001).Granted ⟨fun _ => 0, fun _ => "null"⟩ (.initial 0) ∧
      millis 4294970000 = 2704 ∧
      ((acquireBy "admin" 4294970000 4294970000).serve ⟨fun _ => 0, fun _ => "null"⟩
        (lockAfter ⟨fun _ => 0, fun _ => "null"⟩ (.initial 0)
          [acquireBy "user" 4294967000 4294967001])).1 = some 3201 := by
  have hgranted : (acquireBy "user" 4294967000 4294967001).Granted ⟨fun _ => 0, fun _ => "null"⟩
      (.initial 0) := by
    exact ⟨by decide +kernel, by decide +kernel⟩
  have hreaches : (acquireBy "admin" 4294970000 4294970000).Reaches ⟨fun _ => 0, fun _ => "null"⟩
      .lockAcquire := by
    decide +kernel
  have hexclusive := device_lock_exclusive ⟨fun _ => 0, fun _ => "null"⟩ 0
    [acquireBy "user" 4294967000 4294967001, acquireBy "admin" 4294970000 4294970000]
    (by simp [acquireBy, hardened, Exchange.Enabled]) (by simp [InTime, acquireBy])
  have hkept : ¬ ReleasedIn ⟨fun _ => 0, fun _ => "null"⟩
      (lockAfter ⟨fun _ => 0, fun _ => "null"⟩ (.initial 0)
        ([] ++ [acquireBy "user" 4294967000 4294967001]))
      (acquireBy "user" 4294967000 4294967001) [] := by
    rintro ⟨before, after, r, hsplit, _⟩
    cases before <;> cases hsplit
  have hnow : (acquireBy "admin" 4294970000 4294970000).checkedAt <
      (acquireBy "user" 4294967000 4294967001).lockedAt + 180000 := by
    simp [acquireBy]
  have hrefused := hexclusive.acquire_refused [] [] [] _ _ rfl hgranted hkept hnow hreaches
  exact ⟨hgranted, by decide, hrefused⟩

end Lucidac.Net
