import VaultChat.Text.Record
import VaultChat.Vault.Basic

/-!
# Vault data as it is shown to developers

Passwords, keys and tokens are never part of it.
-/

namespace VaultChat

open Text (Record)

def Vault.NewPassword.shown (e : Vault.NewPassword) : Record :=
  ⟨"NewPassword", [("service", .ofText e.service), ("login", .ofText e.login), ("password", .hidden)]⟩

def Vault.PasswordEntry.shown (e : Vault.PasswordEntry) : Record :=
  ⟨"PasswordEntry", [("id", .ofInt e.id), ("service", .ofText e.service), ("login", .ofText e.login),
    ("password", .hidden), ("updated_at", .ofOption e.updatedAt)]⟩

def Vault.Credentials.shown (_ : Vault.Credentials) : String := "Credentials \x7b .. \x7d"

def Token.shown (_ : Token) : String := "SessionToken(***)"

end VaultChat
