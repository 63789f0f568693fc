import Lucidac.Plugin.PluginLoader

/-!
# What reaches the memory and the processor

The comparison of the firmware hashes rejects what matches, and the error codes of `load` are taken
for success.  So the checks of the loader hold exactly for the messages that are stopped by
something else.
-/

namespace Lucidac.PluginLoader

variable {env : Environment}

/-- A registered plugin fits the memory of the loader. -/
def Fits (s : SinglePluginLoader) : Prop :=
  ∀ plugin, s.plugin = some plugin → plugin.size ≤ s.memsize

/-- The text is the hash or its beginning. -/
def Abbreviates (text hash : String) : Prop := Base64.bytesOf text <+: Base64.bytesOf hash

/-- What holds before code of a message is executed. -/
structure Executable (env : Environment) (s : SinglePluginLoader) (msgIn : Json) : Prop where
  free : s.plugin = none
  addr : env.equalsAddr (msgIn.member "load_addr") s.mem s.loadAddr = true
  hash : Abbreviates (env.json.asStdString (msgIn.member "firmware_sha256")) env.firmwareHash
  whole : (SinglePluginLoader.decoded env msgIn).length =
    (SinglePluginLoader.payload env msgIn).length / 4 * 3
  fits : (SinglePluginLoader.decoded env msgIn).length ≤ s.memsize

/-- Writes stay inside of the memory of the loader, only checked code is executed, and a rejected
message leaves no plugin behind. -/
structure LoadSafe (env : Environment) (s : SinglePluginLoader) (msgIn : Json) : Prop where
  inside : ∀ a ∈ (s.loadAndExecute env msgIn).effects.written,
    s.loadAddr ≤ a ∧ a < s.loadAddr + s.memsize
  executed : (s.loadAndExecute env msgIn).effects.called ≠ none → Executable env s msgIn
  rejected : ∀ code error effects after,
    s.loadAndExecute env msgIn = .answered code error effects after → code ≠ 0 →
      after.plugin = s.plugin

def Message.Safe (env : Environment) (s : SinglePluginLoader) : Message → Prop
  | .loadPlugin msgIn => LoadSafe env s msgIn
  | .unloadPlugin => (s.unload env).effects.written = []

/-- Every message of the run is safe, and every plugin on the way fits. -/
def RunSafe (env : Environment) : List Message → SinglePluginLoader → Prop
  | [], s => Fits s
  | message :: rest, s =>
    Fits s ∧ message.Safe env s ∧ ∀ s', (message.handle env s).after = some s' → RunSafe env rest s'

/-- The message passes all checks before the payload, its firmware hash included, which therefore
is not that of the running firmware. -/
structure PassesChecks (env : Environment) (s : SinglePluginLoader) (msgIn : Json) : Prop where
  free : s.plugin = none
  memory : s.loadAddr ≠ 0
  entry : msgIn.containsKey "entry" = true
  addr : env.equalsAddr (msgIn.member "load_addr") s.mem s.loadAddr = true
  hash : sha256TestShort (env.json.asStdString (msgIn.member "firmware_sha256")) env.firmwareHash = false

/-- The payload is decoded completely and the entry point is aligned. -/
def Runs (env : Environment) (s : SinglePluginLoader) (msgIn : Json) : Prop :=
  (SinglePluginLoader.decoded env msgIn).length =
      (SinglePluginLoader.payload env msgIn).length / 4 * 3 ∧
    (s.loadAddr + (functionFromJson env.json.parseNumber (msgIn.member "entry")).addr) % 4 = 0

def Message.Meets (env : Environment) (s : SinglePluginLoader) : Message → Prop
  | .loadPlugin msgIn => PassesChecks env s msgIn →
      (SinglePluginLoader.decoded env msgIn).length ≤ s.memsize ∧ ¬ Runs env s msgIn
  | .unloadPlugin => True

def RunMeets (env : Environment) : List Message → SinglePluginLoader → Prop
  | [], _ => True
  | message :: rest, s =>
    message.Meets env s ∧ ∀ s', (message.handle env s).after = some s' → RunMeets env rest s'

/-! ### Loading -/

theorem sha256TestShort_of_abbreviates {text hash : String} (h : Abbreviates text hash) :
    sha256TestShort text hash = true := by
  obtain ⟨rest, hrest⟩ := h
  have hle : ¬ (Base64.bytesOf text).length > (Base64.bytesOf hash).length := by
    rw [← hrest, List.length_append]
    omega
  simp only [sha256TestShort]
  rw [if_neg hle, if_neg hle, beq_iff_eq, ← hrest, List.take_left]

section Loading

variable {s : SinglePluginLoader} {msgIn : Json}

variable (env msgIn s) in
theorem execute_of_misaligned (plugin : Plugin) (written : List Nat)
    (h : (plugin.loadAddr + plugin.entry.addr) % 4 ≠ 0) :
    s.execute env msgIn plugin written =
      .answered 8 "Entry point address not properly aligned" { written } s.reset := by
  rw [SinglePluginLoader.execute, assertCallable, if_pos h]

variable (env msgIn s) in
theorem execute_of_aligned (plugin : Plugin) (written : List Nat)
    (h : (plugin.loadAddr + plugin.entry.addr) % 4 = 0) :
    ∃ entryPoint after,
      (after.plugin = none ∨ after.plugin = s.plugin ∧ after.memsize = s.memsize) ∧
      s.execute env msgIn plugin written =
        .answered 0 none { written, called := some entryPoint } after := by
  rw [SinglePluginLoader.execute, assertCallable, if_neg (not_not.mpr h)]
  refine ⟨_, _, ?_, rfl⟩
  split
  · exact Or.inl rfl
  · exact Or.inr ⟨rfl, rfl⟩

/-- A message that does not pass the checks is answered with a code and has no effect. -/
theorem loadAndExecute_of_not_passes (h : ¬ PassesChecks env s msgIn) :
    ∃ code error, code ≠ 0 ∧ s.loadAndExecute env msgIn = .answered code error {} s := by
  simp only [SinglePluginLoader.loadAndExecute]
  by_cases hfree : s.plugin.isSome = true
  · rw [if_pos hfree]
    exact ⟨1, _, by decide, rfl⟩
  rw [if_neg hfree]
  by_cases hmemory : (!s.canLoad) = true
  · rw [if_pos hmemory]
    exact ⟨2, _, by decide, rfl⟩
  rw [if_neg hmemory]
  by_cases hentry : (!msgIn.containsKey "entry") = true
  · rw [if_pos hentry]
    exact ⟨3, _, by decide, rfl⟩
  rw [if_neg hentry]
  by_cases haddr : (!env.equalsAddr (msgIn.member "load_addr") s.mem s.loadAddr) = true
  · rw [if_pos haddr]
    exact ⟨4, _, by decide, rfl⟩
  rw [if_neg haddr]
  have hnone : s.plugin = none := by
    rw [Bool.not_eq_true, Option.isSome_eq_false_iff, Option.isNone_iff_eq_none] at hfree
    exact hfree
  have hhash : sha256TestShort (env.json.asStdString (msgIn.member "firmware_sha256"))
      env.firmwareHash = true := by
    by_contra hdiffers
    apply h
    simp only [SinglePluginLoader.canLoad, hnone] at hmemory
    exact ⟨hnone, by simpa using hmemory, by simpa using hentry, by simpa using haddr,
      Bool.not_eq_true _ ▸ hdiffers⟩
  rw [if_pos hhash]
  exact ⟨5, _, by decide, rfl⟩

/-- The addresses of the decoded bytes. -/
def writtenBy (env : Environment) (s : SinglePluginLoader) (msgIn : Json) : List Nat :=
  (List.range (SinglePluginLoader.decoded env msgIn).length).map (s.loadAddr + ·)

/-- The loader after the payload was decoded, with the plugin registered if it fits. -/
def decodedInto (env : Environment) (s : SinglePluginLoader) (msgIn : Json) : SinglePluginLoader where
  mem := store s.mem s.loadAddr (SinglePluginLoader.decoded env msgIn)
  plugin := if (SinglePluginLoader.payload env msgIn).length / 4 * 3 > s.memsize then none
    else some (SinglePluginLoader.newPlugin env msgIn s)
  loadAddr := s.loadAddr
  memsize := s.memsize

/-- Past the checks, nothing keeps the payload from being decoded into the memory. -/
theorem loadAndExecute_of_passes (h : PassesChecks env s msgIn) :
    s.loadAndExecute env msgIn =
      if (SinglePluginLoader.decoded env msgIn).length ≠
          (SinglePluginLoader.payload env msgIn).length / 4 * 3 then
        .answered 7 "Could not decode base64-encoded payload."
          { written := writtenBy env s msgIn } (decodedInto env s msgIn).reset
      else match (decodedInto env s msgIn).plugin with
        | none => .emptyAccess { written := writtenBy env s msgIn }
        | some plugin => SinglePluginLoader.execute env msgIn plugin (writtenBy env s msgIn)
            (decodedInto env s msgIn) := by
  have hcan : s.canLoad = true := by
    simp only [SinglePluginLoader.canLoad, h.free]
    exact bne_iff_ne.mpr h.memory
  have hload : s.load (SinglePluginLoader.newPlugin env msgIn s) =
      if (SinglePluginLoader.payload env msgIn).length / 4 * 3 > s.memsize then (2, s)
      else (1, { s with plugin := some (SinglePluginLoader.newPlugin env msgIn s) }) := by
    rw [SinglePluginLoader.load, h.free]
    rfl
  simp only [SinglePluginLoader.loadAndExecute, h.free, hcan, h.entry, h.addr, h.hash, hload,
    Option.isSome_none, Bool.not_true, Bool.false_eq_true, if_false]
  by_cases hsize : (SinglePluginLoader.payload env msgIn).length / 4 * 3 > s.memsize
  · simp only [if_pos hsize, decodedInto, h.free]
    rfl
  · simp only [if_neg hsize, decodedInto]
    rfl

theorem writtenBy_inside_iff :
    (∀ a ∈ writtenBy env s msgIn, s.loadAddr ≤ a ∧ a < s.loadAddr + s.memsize) ↔
      (SinglePluginLoader.decoded env msgIn).length ≤ s.memsize := by
  simp only [writtenBy, List.forall_mem_map, List.mem_range]
  constructor
  · intro h
    by_contra hlarge
    have := h s.memsize (Nat.not_le.mp hlarge)
    omega
  · intro h i hi
    omega

/-- Without a call, what matters is where was written and that the slot is as before. -/
theorem loadSafe_of_rejected {code : Int} {error : Option String} {written : List Nat}
    {after : SinglePluginLoader}
    (houtcome : s.loadAndExecute env msgIn = .answered code error { written } after)
    (hinside : ∀ a ∈ written, s.loadAddr ≤ a ∧ a < s.loadAddr + s.memsize)
    (hafter : after.plugin = s.plugin) : LoadSafe env s msgIn := by
  constructor
  · rw [houtcome]
    exact hinside
  · rw [houtcome]
    exact fun hcalled => absurd rfl hcalled
  · intro code' error' effects after' hanswer _
    rw [houtcome] at hanswer
    injection hanswer with _ _ _ hsame
    rw [← hsame]
    exact hafter

/-- A payload that is not decoded completely only shows in the memory. -/
theorem loadSafe_iff_of_incomplete (h : PassesChecks env s msgIn)
    (hincomplete : (SinglePluginLoader.decoded env msgIn).length ≠
      (SinglePluginLoader.payload env msgIn).length / 4 * 3) :
    LoadSafe env s msgIn ↔ (SinglePluginLoader.decoded env msgIn).length ≤ s.memsize := by
  have houtcome := loadAndExecute_of_passes h
  rw [if_pos hincomplete] at houtcome
  rw [← writtenBy_inside_iff]
  constructor
  · intro hsafe
    have hinside := hsafe.inside
    rwa [houtcome] at hinside
  · intro hinside
    exact loadSafe_of_rejected houtcome hinside h.free.symm

/-- What is decoded completely is safe exactly if it fits and cannot be called. -/
theorem loadSafe_iff_of_whole (h : PassesChecks env s msgIn)
    (hwhole : (SinglePluginLoader.decoded env msgIn).length =
      (SinglePluginLoader.payload env msgIn).length / 4 * 3) :
    LoadSafe env s msgIn ↔
      (SinglePluginLoader.decoded env msgIn).length ≤ s.memsize ∧
        (s.loadAddr + (functionFromJson env.json.parseNumber (msgIn.member "entry")).addr) % 4 ≠ 0 := by
  have houtcome := loadAndExecute_of_passes h
  rw [if_neg (not_not.mpr hwhole)] at houtcome
  by_cases hsize : (SinglePluginLoader.payload env msgIn).length / 4 * 3 > s.memsize
  · -- nothing is registered, but the whole payload is written
    apply iff_of_false
    · intro hsafe
      have hinside := hsafe.inside
      simp only [houtcome, decodedInto, if_pos hsize] at hinside
      have hle := writtenBy_inside_iff.mp hinside
      omega
    · omega
  · have hplugin : (decodedInto env s msgIn).plugin =
        some (SinglePluginLoader.newPlugin env msgIn s) := if_neg hsize
    rw [hplugin] at houtcome
    by_cases haligned :
        (s.loadAddr + (functionFromJson env.json.parseNumber (msgIn.member "entry")).addr) % 4 = 0
    · obtain ⟨entryPoint, after, -, hexecute⟩ := execute_of_aligned env
        (decodedInto env s msgIn) msgIn (SinglePluginLoader.newPlugin env msgIn s)
        (writtenBy env s msgIn) haligned
      apply iff_of_false
      · intro hsafe
        have hexecutable : Executable env s msgIn := by
          apply hsafe.executed
          rw [houtcome]
          simp only
          rw [hexecute]
          exact Option.some_ne_none _
        have htest := sha256TestShort_of_abbreviates hexecutable.hash
        rw [h.hash] at htest
        exact Bool.false_ne_true htest
      · exact fun hboth => hboth.2 haligned
    · have hexecute := execute_of_misaligned env (decodedInto env s msgIn) msgIn
        (SinglePluginLoader.newPlugin env msgIn s) (writtenBy env s msgIn) haligned
      have hfits : (SinglePluginLoader.decoded env msgIn).length ≤ s.memsize := by omega
      exact iff_of_true (loadSafe_of_rejected (houtcome.trans hexecute)
        (writtenBy_inside_iff.mpr hfits) h.free.symm) ⟨hfits, haligned⟩

theorem loadSafe_iff : LoadSafe env s msgIn ↔ Message.Meets env s (.loadPlugin msgIn) := by
  rw [Message.Meets]
  by_cases h : PassesChecks env s msgIn
  · by_cases hwhole : (SinglePluginLoader.decoded env msgIn).length =
        (SinglePluginLoader.payload env msgIn).length / 4 * 3
    · rw [loadSafe_iff_of_whole h hwhole, Runs]
      simp [h, hwhole]
    · rw [loadSafe_iff_of_incomplete h hwhole, Runs]
      simp [h, hwhole]
  · obtain ⟨code, error, hcode, houtcome⟩ := loadAndExecute_of_not_passes h
    apply iff_of_true _ (fun hpasses => absurd hpasses h)
    exact loadSafe_of_rejected houtcome (fun a ha => absurd ha List.not_mem_nil) rfl

end Loading

/-! ### Runs -/

theorem unload_written (s : SinglePluginLoader) : (s.unload env).effects.written = [] := by
  simp only [SinglePluginLoader.unload]
  split
  · rfl
  · split
    · rfl
    · split <;> rfl

theorem fits_reset (s : SinglePluginLoader) : Fits s.reset := by
  intro plugin h
  cases h

theorem fits_loaded {s s' : SinglePluginLoader} {msgIn : Json} (hpasses : PassesChecks env s msgIn)
    (h : (s.loadAndExecute env msgIn).after = some s') : Fits s' := by
  rw [loadAndExecute_of_passes hpasses] at h
  by_cases hwhole : (SinglePluginLoader.decoded env msgIn).length ≠
      (SinglePluginLoader.payload env msgIn).length / 4 * 3
  · rw [if_pos hwhole, Outcome.after, Option.some.injEq] at h
    exact h ▸ fits_reset _
  rw [if_neg hwhole] at h
  by_cases hsize : (SinglePluginLoader.payload env msgIn).length / 4 * 3 > s.memsize
  · have hplugin : (decodedInto env s msgIn).plugin = none := if_pos hsize
    rw [hplugin] at h
    cases h
  have hplugin : (decodedInto env s msgIn).plugin =
      some (SinglePluginLoader.newPlugin env msgIn s) := if_neg hsize
  rw [hplugin] at h
  simp only at h
  by_cases haligned :
      (s.loadAddr + (functionFromJson env.json.parseNumber (msgIn.member "entry")).addr) % 4 = 0
  · obtain ⟨entryPoint, after, hafter, hexecute⟩ := execute_of_aligned env
      (decodedInto env s msgIn) msgIn (SinglePluginLoader.newPlugin env msgIn s) (writtenBy env s msgIn)
      haligned
    rw [hexecute, Outcome.after, Option.some.injEq] at h
    subst h
    intro plugin hsome
    rcases hafter with hnone | ⟨hsame, hmemsize⟩
    · rw [hnone] at hsome
      cases hsome
    · rw [hsame, hplugin, Option.some.injEq] at hsome
      rw [← hsome, hmemsize]
      exact Nat.not_lt.mp hsize
  · rw [execute_of_misaligned env (decodedInto env s msgIn) msgIn
      (SinglePluginLoader.newPlugin env msgIn s) _ haligned, Outcome.after, Option.some.injEq] at h
    exact h ▸ fits_reset _

theorem unload_plugin {s s' : SinglePluginLoader} (h : (s.unload env).after = some s') :
    s'.plugin = none := by
  rw [SinglePluginLoader.unload] at h
  cases hplugin : s.plugin with
  | none =>
    simp only [hplugin, Outcome.after, Option.some.injEq] at h
    exact h ▸ hplugin
  | some plugin =>
    simp only [hplugin] at h
    cases hexit : plugin.exit with
    | none =>
      simp only [hexit, Outcome.after, Option.some.injEq] at h
      exact h ▸ rfl
    | some exit =>
      simp only [hexit] at h
      cases hcallable : assertCallable (plugin.loadAddr + exit.addr) with
      | none =>
        simp only [hcallable, Outcome.after, Option.some.injEq] at h
        exact h ▸ rfl
      | some exitPoint =>
        simp only [hcallable, Outcome.after, Option.some.injEq] at h
        exact h ▸ rfl

theorem fits_after {s s' : SinglePluginLoader} {message : Message} (hs : Fits s)
    (h : (message.handle env s).after = some s') : Fits s' := by
  cases message with
  | loadPlugin msgIn =>
    by_cases hpasses : PassesChecks env s msgIn
    · exact fits_loaded hpasses h
    · obtain ⟨code, error, -, houtcome⟩ := loadAndExecute_of_not_passes hpasses
      rw [Message.handle, houtcome, Outcome.after, Option.some.injEq] at h
      exact h ▸ hs
  | unloadPlugin =>
    intro plugin hsome
    rw [unload_plugin h] at hsome
    cases hsome

theorem plugin_run_safe_iff (env : Environment) (messages : List Message) (s : SinglePluginLoader)
    (hs : Fits s) : RunSafe env messages s ↔ RunMeets env messages s := by
  induction messages generalizing s with
  | nil => exact iff_of_true hs trivial
  | cons message rest ih =>
    have hsafe : message.Safe env s ↔ message.Meets env s := by
      cases message with
      | loadPlugin msgIn => exact loadSafe_iff
      | unloadPlugin => exact iff_of_true (unload_written s) trivial
    rw [RunSafe, RunMeets, hsafe]
    constructor
    · rintro ⟨-, hmeets, hrest⟩
      exact ⟨hmeets, fun s' hnext => (ih s' (fits_after hs hnext)).mp (hrest s' hnext)⟩
    · rintro ⟨hmeets, hrest⟩
      exact ⟨hs, hmeets, fun s' hnext => (ih s' (fits_after hs hnext)).mpr (hrest s' hnext)⟩

/-! ### A fresh loader -/

/-- How the JSON library compares a value with a pointer to bytes: as texts, up to the first zero. -/
def equalsText (value : Json) (mem : Memory) (addr : Nat) : Bool :=
  match value with
  | .string s =>
    let text := Base64.bytesOf s ++ [0]
    (List.range text.length).all fun i => mem (addr + i) == text.getD i 0
  | _ => false

def freshEnvironment : Environment where
  json := ⟨fun _ => 0, fun _ => "null"⟩
  equalsAddr := equalsText
  firmwareHash := "9f86d081884c7d659a2feaa0c55ad015a3bf4f1b2b0b822cd15d6c15b0f00a08"
  dispatch := fun _ _ mem => mem

/-- Memory that was never written. -/
def freshLoader : SinglePluginLoader := ⟨fun _ => 0, none, 0x20001000, 1024⟩

theorem fits_freshLoader : Fits freshLoader := by
  intro plugin h
  cases h

/-- Code that was built against another firmware is executed. -/
theorem other_firmware_executed :
    ¬ RunSafe freshEnvironment [.loadPlugin (.object [("entry", .integer 0), ("load_addr", .string ""),
      ("firmware_sha256", .string "0000000"), ("payload", .string "AAAA")])] freshLoader := by
  intro h
  have hexecutable := h.2.1.executed (by decide +kernel)
  exact absurd hexecutable.hash (by rw [Abbreviates]; decide +kernel)

/-- The entry point is not aligned. -/
def misaligned : Json :=
  .object [("entry", .integer 2), ("load_addr", .string ""), ("firmware_sha256", .string "0000000"),
    ("payload", .string "AQID")]

/-- Code whose entry point is not aligned is decoded and then rejected, and code that was built
against the running firmware is rejected at once. -/
theorem same_firmware_rejected :
    RunSafe freshEnvironment [.loadPlugin misaligned,
        .loadPlugin (.object [("entry", .integer 0), ("load_addr", .string ""),
          ("firmware_sha256", .string "9f86d08"), ("payload", .string "AAAA")]),
        .unloadPlugin] freshLoader ∧
      PassesChecks freshEnvironment freshLoader misaligned ∧
      SinglePluginLoader.decoded freshEnvironment misaligned = [1, 2, 3] := by
  refine ⟨(plugin_run_safe_iff freshEnvironment _ freshLoader fits_freshLoader).mpr ?_, ?_, ?_⟩
  · refine ⟨fun _ => ⟨by decide +kernel, ?_⟩, fun s' _ => ⟨fun hpasses => ?_, fun s'' _ => ?_⟩⟩
    · rw [Runs]
      decide +kernel
    · exact absurd hpasses.hash (by decide +kernel)
    · exact ⟨trivial, fun _ _ => trivial⟩
  · exact ⟨rfl, by decide, by decide +kernel, by decide +kernel, by decide +kernel⟩
  · decide +kernel

end Lucidac.PluginLoader
