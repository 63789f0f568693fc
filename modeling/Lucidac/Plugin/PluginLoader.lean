import Lucidac.Platform.Config
import Lucidac.Utils.Base64

/-!
# The plugin loader

A plugin is machine code that a client sends in a message.  The loader keeps at most one of them in
a fixed piece of memory and calls its entry point, and its exit point when it is unloaded.  The code
of a plugin may change any memory, but not the records of the loader.
-/

namespace Lucidac.PluginLoader

abbrev Memory := Nat → BitVec 8

inductive Returns where
  | none
  | bool
  | int
  | string
  | jsonObject
  deriving DecidableEq

structure Function where
  addr : Nat := 0
  retType : Returns := .none

structure Plugin where
  loadAddr : Nat
  size : Nat
  entry : Function
  exit : Option Function

/-- What the loader uses besides its memory: the JSON library with its comparison of a value with
the load address, the hash of the running firmware as text, and what the called code does. -/
structure Environment where
  json : Platform.JsonLibrary
  equalsAddr : Json → Memory → Nat → Bool
  firmwareHash : String
  dispatch : Nat → Returns → Memory → Memory

structure SinglePluginLoader where
  mem : Memory
  plugin : Option Plugin
  loadAddr : Nat
  memsize : Nat

/-- The addresses that a handler wrote itself, and the entry point it called. -/
structure Effects where
  written : List Nat := []
  called : Option Nat := none

/-- How a handler ends: with a code and an error text, or by using the plugin of an empty slot. -/
inductive Outcome where
  | answered (code : Int) (error : Option String) (effects : Effects) (after : SinglePluginLoader)
  | emptyAccess (effects : Effects)

def Outcome.effects : Outcome → Effects
  | .answered _ _ effects _ => effects
  | .emptyAccess effects => effects

/-- The loader that goes on afterwards, if there is one. -/
def Outcome.after : Outcome → Option SinglePluginLoader
  | .answered _ _ _ after => some after
  | .emptyAccess _ => none

def isInt : Json → Bool
  | .integer n => -2^31 ≤ n && n < 2^31
  | _ => false

def returnsNamed (name : Json) : Returns :=
  match name with
  | .string "Bool" => .bool
  | .string "Int" => .int
  | .string "String" => .string
  | .string "JsonObject" => .jsonObject
  | _ => .none

/-- `convertFromJson` for functions. -/
def functionFromJson (parseNumber : String → ℚ) (src : Json) : Function :=
  if isInt src then { addr := src.asUnsigned 32 parseNumber }
  else if src.isObject then
    { addr := (src.member "point").asUnsigned 32 parseNumber
      retType := if (src.member "returns").asBool then returnsNamed (src.member "returns")
        else .none }
  else {}

/-- The text of which every abbreviation is allowed is the longer one, whichever it is. -/
def sha256TestShort (a b : String) : Bool :=
  let a := Base64.bytesOf a
  let b := Base64.bytesOf b
  let longer := if a.length > b.length then a else b
  let shorter := if a.length > b.length then b else a
  shorter == longer.take shorter.length

/-- The address to jump to, unless it is not aligned. -/
def assertCallable (addr : Nat) : Option Nat :=
  if addr % 4 ≠ 0 then none else some (addr + 1)

def store (mem : Memory) (addr : Nat) (data : List (BitVec 8)) : Memory := fun a =>
  if addr ≤ a ∧ a < addr + data.length then data.getD (a - addr) 0 else mem a

namespace SinglePluginLoader

def canLoad (s : SinglePluginLoader) : Bool :=
  match s.plugin with
  | some plugin => plugin.loadAddr == 0 || plugin.size != 0
  | none => s.loadAddr != 0

/-- Announced to return 0 on success. -/
def load (s : SinglePluginLoader) (newPlugin : Plugin) : Int × SinglePluginLoader :=
  if s.plugin.isSome then (1, s)
  else if newPlugin.size > s.memsize then (2, s)
  else (1, { s with plugin := some newPlugin })

/-- Frees the slot without calling the exit point. -/
def reset (s : SinglePluginLoader) : SinglePluginLoader := { s with plugin := none }

variable (env : Environment)

def payload (msgIn : Json) : List (BitVec 8) :=
  Base64.bytesOf (env.json.asStdString (msgIn.member "payload"))

def newPlugin (msgIn : Json) (s : SinglePluginLoader) : Plugin where
  loadAddr := s.loadAddr
  size := (payload env msgIn).length / 4 * 3
  entry := functionFromJson env.json.parseNumber (msgIn.member "entry")
  exit := if msgIn.containsKey "exit" then
    some (functionFromJson env.json.parseNumber (msgIn.member "exit")) else none

/-- The bytes that the decoder writes. -/
def decoded (msgIn : Json) : List (BitVec 8) :=
  Base64.decode (payload env msgIn) ((payload env msgIn).length / 4 * 3)

/-- From the call of the entry point on. -/
def execute (msgIn : Json) (plugin : Plugin) (written : List Nat) (s : SinglePluginLoader) :
    Outcome :=
  match assertCallable (plugin.loadAddr + plugin.entry.addr) with
  | none =>
    .answered 8 "Entry point address not properly aligned" { written } s.reset
  | some entryPoint =>
    let s := { s with mem := env.dispatch entryPoint plugin.entry.retType s.mem }
    .answered 0 none { written, called := some entryPoint }
      (if msgIn.containsKey "immediately_unload" then s.reset else s)

def loadAndExecute (msgIn : Json) (s : SinglePluginLoader) : Outcome :=
  if s.plugin.isSome then
    .answered 1 "Already have plugin loaded, can only load one plugin at a time. Call unload before."
      {} s
  else if !s.canLoad then
    .answered 2 ("PluginLoader cannot load code. This is currently most likely due to the missing " ++
      "compile time flag ANABRID_ENABLE_GLOBAL_PLUGIN_LOADER") {} s
  else if !msgIn.containsKey "entry" then
    .answered 3 "Requiring entry point \"entry\"=0x1234 even if it is just 0." {} s
  else if !env.equalsAddr (msgIn.member "load_addr") s.mem s.loadAddr then
    .answered 4 ("Require matching load address for verification. This SinglePluginLoader can " ++
      "only load from: [todo]") {} s
  else if sha256TestShort (env.json.asStdString (msgIn.member "firmware_sha256")) env.firmwareHash then
    .answered 5 "ABI mismatch: You built against [your firmware sha256] but we run [our sha256]" {} s
  else
    let plugin := newPlugin env msgIn s
    let loaded := s.load plugin
    if loaded.1 = 0 then
      .answered 6 "Payload too large or some code is already loaded." {} loaded.2
    else
      let data := decoded env msgIn
      let written := (List.range data.length).map (plugin.loadAddr + ·)
      let s := { loaded.2 with mem := store loaded.2.mem plugin.loadAddr data }
      if data.length ≠ plugin.size then
        .answered 7 "Could not decode base64-encoded payload." { written } s.reset
      else
        match s.plugin with
        | none => .emptyAccess { written }
        | some plugin => execute env msgIn plugin written s

def unload (s : SinglePluginLoader) : Outcome :=
  match s.plugin with
  | none => .answered 9 "Cannot unload, nothing loaded" {} s
  | some plugin =>
    match plugin.exit with
    | none => .answered 0 none {} s.reset
    | some exit =>
      match assertCallable (plugin.loadAddr + exit.addr) with
      | none => .answered 10 "Exit point address not properly aligned" {} s.reset
      | some exitPoint =>
        .answered 0 none { called := some exitPoint }
          { s with mem := env.dispatch exitPoint exit.retType s.mem }.reset

end SinglePluginLoader

inductive Message where
  | loadPlugin (msgIn : Json)
  | unloadPlugin

def Message.handle (env : Environment) (s : SinglePluginLoader) : Message → Outcome
  | .loadPlugin msgIn => s.loadAndExecute env msgIn
  | .unloadPlugin => s.unload env

end Lucidac.PluginLoader
