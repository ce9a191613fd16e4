import VaultChat.Config.Environment
import VaultChat.Toml.Document

/-!
# Configurations as documents

A configuration is written as a document with a table for each group of settings.  An array of the values of a group
in their order serves as well.  Keys that name no setting are ignored, and a setting that is missing has its default.
-/

namespace VaultChat.Config

open Toml

/-! ### Values of settings -/

def textOf? : Value → Option String
  | .text s => some s
  | _ => none

def countOf? : Value → Option Nat
  | .integer n => if 0 ≤ n then some n.toNat else none
  | _ => none

/-- Whether a value has parts and no part is there. -/
def isHollow : Value → Bool
  | .array [] | .inline [] | .table _ [] => true
  | _ => false

/-- A choice, by its name alone or by a table with its name as the only key. -/
def choiceOf? {α : Type} (ofName? : String → Option α) : Value → Option α
  | .text s => ofName? s
  | .inline [(name, v)] | .table _ [(name, v)] => if isHollow v then ofName? name else none
  | _ => none

/-! ### Groups of settings -/

/-- The settings of a group by their keys.  A moment in the place of a group sets nothing. -/
def settingsOf? (keys : List String) : Value → Option Entries
  | .table _ es | .inline es => some es
  | .moment _ => some []
  | .array items => some (keys.zip items)
  | .tables latest earlier => some (keys.zip ((earlier.reverse ++ [latest]).map (.table .header)))
  | _ => none

/-- The value under a key, or the default where the key is missing. -/
def setting {α : Type} (es : Entries) (key : String) (read : Value → Option α) (default : α) : Option α :=
  match es.find? key with
  | some v => read v
  | none => some default

/-- Reads the settings of a group into a configuration.  A missing group changes nothing. -/
def withGroup (es : Entries) (key : String) (keys : List String) (read : Entries → Config → Option Config)
    (c : Config) : Option Config :=
  match es.find? key with
  | some v => (settingsOf? keys v).bind fun es => read es c
  | none => some c

/-- An array in the place of this group has to give the token. -/
def readTelegram (es : Entries) (c : Config) : Option Config :=
  match es.find? "telegram" with
  | some (.array []) => none
  | _ =>
    withGroup es "telegram" ["token"] (fun es c => do
      return { c with botToken := ← setting es "token" (fun v => (textOf? v).map some) c.botToken }) c

def readVault (es : Entries) : Config → Option Config :=
  withGroup es "vault" ["base_url", "timeout_secs"] fun es c => do
    return { c with
      vaultUrl := ← setting es "base_url" textOf? c.vaultUrl
      vaultSeconds := ← setting es "timeout_secs" countOf? c.vaultSeconds }

def readSession (es : Entries) : Config → Option Config :=
  withGroup es "session" ["backend", "db_path", "ttl_secs", "refresh"] fun es c => do
    return { c with
      backend := ← setting es "backend" (choiceOf? Backend.ofName?) c.backend
      databasePath := ← setting es "db_path" textOf? c.databasePath
      sessionSeconds := ← setting es "ttl_secs" countOf? c.sessionSeconds
      refresh := ← setting es "refresh" (choiceOf? Session.RefreshPolicy.ofName?) c.refresh }

def readGenerator (es : Entries) : Config → Option Config :=
  withGroup es "generator" ["default_length"] fun es c => do
    return { c with passwordLength := ← setting es "default_length" countOf? c.passwordLength }

/-- The configuration that a document describes. -/
def ofEntries? (es : Entries) : Option Config :=
  readTelegram es {} >>= readVault es >>= readSession es >>= readGenerator es

/-- Reads a document after references to variables were replaced. -/
def ofText (env : Environment) (text : String) : Except Error Config :=
  match (Document.read? (env.expand text.toList)).bind ofEntries? with
  | some c => .ok c
  | none => .error (.config "Failed to parse TOML")

/-! ### Files -/

/-- The file in the working directory that holds the configuration. -/
def fileName : String := "pm-gateway.toml"

/-- The configuration in a file, which may be missing, under the overrides of the environment. -/
def ofFile (env : Environment) : Option ByteArray → Except Error Config
  | none => .error (.config "Failed to read config file: No such file or directory (os error 2)")
  | some bytes =>
    match String.fromUTF8? bytes with
    | none => .error (.config "Failed to read config file: stream did not contain valid UTF-8")
    | some text => ofText env text >>= override env

/-- The configuration of the environment alone. -/
def ofEnvironment (env : Environment) : Except Error Config := override env {}

/-- The configuration in the file if there is one, and else that of the environment. -/
def load (env : Environment) (file : Option ByteArray) : Except Error Config :=
  if file.isSome then ofFile env file else ofEnvironment env

end VaultChat.Config
