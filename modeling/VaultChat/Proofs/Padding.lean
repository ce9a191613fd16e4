import VaultChat.Proofs.AccountReset
import VaultChat.Proofs.Cells
import VaultChat.Vault.Client

/-!
# Zeros in front of a code

A code is passed on as a number, and the number is written anew for the request that deletes an account.  What is
written are the digits of the line without the zeros in front (`toDigits_eq_unpadded`).  Hence the vault gets the code
as it was typed only if there were none (`deletion_code_unpadded`), and lines that differ by such zeros make the same
request (`padded_code_cut`).
-/

namespace VaultChat

open Chat Session Text

namespace Text

/-- There are zeros in front of the last digit. -/
def Padded (ds : List Char) : Prop := ∃ d rest, ds = '0' :: d :: rest

/-- The digits without the zeros in front.  The last digit stays. -/
def unpadded : List Char → List Char
  | '0' :: d :: ds => unpadded (d :: ds)
  | ds => ds

variable {ds : List Char} {d : Char}

theorem unpadded_of_not_padded (h : ¬ Padded ds) : unpadded ds = ds := by
  unfold unpadded
  split
  · exact absurd ⟨_, _, rfl⟩ h
  · rfl

theorem length_unpadded_le (ds : List Char) : (unpadded ds).length ≤ ds.length := by
  fun_induction unpadded ds with
  | case1 d ds ih => exact Nat.le_succ_of_le ih
  | case2 ds => exact Nat.le_refl _

theorem unpadded_eq_self_iff : unpadded ds = ds ↔ ¬ Padded ds := by
  refine ⟨?_, unpadded_of_not_padded⟩
  rintro h ⟨d, rest, rfl⟩
  have hle := length_unpadded_le (d :: rest)
  rw [unpadded] at h
  rw [h, List.length_cons] at hle
  exact Nat.not_succ_le_self _ hle

/-- Only zeros are left out. -/
theorem exists_eq_replicate_append_unpadded (ds : List Char) : ∃ n, ds = List.replicate n '0' ++ unpadded ds := by
  fun_induction unpadded ds with
  | case1 d ds ih =>
    obtain ⟨n, hn⟩ := ih
    refine ⟨n + 1, ?_⟩
    rw [List.replicate_succ, List.cons_append, ← hn]
  | case2 ds => exact ⟨0, rfl⟩

/-! ### Numbers and their digits -/

theorem digitValue_lt (h : isDigit d = true) : digitValue d < 10 := by
  have hrange := toNat_of_isDigit h
  show d.toNat - 48 < 10
  omega

theorem digitChar_digitValue (h : isDigit d = true) : Nat.digitChar (digitValue d) = d := by
  have hrange := toNat_of_isDigit h
  apply Char.toNat_inj.1
  rw [Nat.toNat_digitChar_of_lt_ten (digitValue_lt h)]
  show 48 + (d.toNat - 48) = d.toNat
  omega

/-- Digits that are read on are written behind those of the number before them, unless it is zero. -/
theorem toDigits_digitsValue {acc : Nat} (hacc : 0 < acc) (h : ∀ c ∈ ds, isDigit c = true) :
    Nat.toDigits 10 (digitsValue acc ds) = Nat.toDigits 10 acc ++ ds := by
  induction ds generalizing acc with
  | nil => exact (List.append_nil _).symm
  | cons d ds ih =>
    obtain ⟨hd, hds⟩ := List.forall_mem_cons.1 h
    have hnext : Nat.toDigits 10 (10 * acc + digitValue d) = Nat.toDigits 10 acc ++ [d] := by
      rw [← Nat.toDigits_append_toDigits (by decide) hacc (digitValue_lt hd),
        Nat.toDigits_of_lt_base (digitValue_lt hd), digitChar_digitValue hd]
    have hpos : 0 < 10 * acc + digitValue d := by omega
    calc Nat.toDigits 10 (digitsValue acc (d :: ds))
        = Nat.toDigits 10 (10 * acc + digitValue d) ++ ds := ih hpos hds
      _ = Nat.toDigits 10 acc ++ d :: ds := by rw [hnext, List.append_assoc, List.singleton_append]

/-- A number is written with the digits from which it was read, but for zeros in front. -/
theorem toDigits_eq_unpadded (hne : ds ≠ []) (h : ∀ c ∈ ds, isDigit c = true) :
    Nat.toDigits 10 (digitsValue 0 ds) = unpadded ds := by
  fun_induction unpadded ds with
  | case1 d ds ih =>
    obtain ⟨-, hds⟩ := List.forall_mem_cons.1 h
    exact ih nofun hds
  | case2 ds hpad =>
    obtain ⟨d, ds, rfl⟩ := List.exists_cons_of_ne_nil hne
    obtain ⟨hd, hds⟩ := List.forall_mem_cons.1 h
    have hfirst : Nat.toDigits 10 (digitValue d) = [d] := by
      rw [Nat.toDigits_of_lt_base (digitValue_lt hd), digitChar_digitValue hd]
    have hvalue : digitsValue 0 (d :: ds) = digitsValue (digitValue d) ds := by
      show digitsValue (10 * 0 + digitValue d) ds = _
      rw [Nat.mul_zero, Nat.zero_add]
    rw [hvalue]
    by_cases hzero : digitValue d = 0
    · -- The zero is not in front of another digit, so it is the last one.
      have hd : d = '0' := by
        rw [← digitChar_digitValue hd, hzero]
        rfl
      have hlast : ds = [] := by
        cases ds with
        | nil => rfl
        | cons d' ds' => exact (hpad d' ds' (by rw [hd])).elim
      rw [hlast]
      exact hfirst
    · rw [toDigits_digitsValue (Nat.pos_of_ne_zero hzero) hds, hfirst, List.singleton_append]

end Text

/-! ### Requests -/

namespace Vault

/-- What is sent along to delete an account, with the code in this written form. -/
def deletionBody (username : String) (digits : List Char) : String :=
  Json.object [("username", Json.quoted username), ("totp_code", Json.quoted (String.ofList digits))]

theorem escapeChar_of_isDigit {c : Char} (h : isDigit c = true) : Json.escapeChar c = [c] := by
  have hne {x : Char} (hx : isDigit x = false) : c ≠ x := by
    rintro rfl
    cases h.symm.trans hx
  have hhigh : ¬ c.toNat < 0x20 := by
    have hrange := toNat_of_isDigit h
    omega
  rw [Json.escapeChar, if_neg (hne rfl), if_neg (hne rfl), if_neg (hne rfl), if_neg (hne rfl), if_neg (hne rfl),
    if_neg (hne rfl), if_neg (hne rfl), if_neg hhigh]

/-- Digits are quoted as they are. -/
theorem quoted_digits {ds : List Char} (h : ∀ c ∈ ds, isDigit c = true) :
    Json.quoted (String.ofList ds) = String.ofList ('"' :: ds ++ ['"']) := by
  have hall : ds.flatMap Json.escapeChar = ds := by
    induction ds with
    | nil => rfl
    | cons c ds ih =>
      obtain ⟨hc, hds⟩ := List.forall_mem_cons.1 h
      rw [List.flatMap_cons, escapeChar_of_isDigit hc, ih hds, List.singleton_append]
  rw [Json.quoted, String.toList_ofList, hall]

theorem deletionBody_inj {username : String} {ds ds' : List Char} (h : ∀ c ∈ ds, isDigit c = true)
    (h' : ∀ c ∈ ds', isDigit c = true) : deletionBody username ds = deletionBody username ds' ↔ ds = ds' := by
  refine ⟨fun heq => ?_, fun heq => by rw [heq]⟩
  have hbody (digits : List Char) : deletionBody username digits =
      "\x7b" ++ (Json.quoted "username" ++ ":" ++ Json.quoted username ++ "," ++
        (Json.quoted "totp_code" ++ ":" ++ Json.quoted (String.ofList digits))) ++ "\x7d" := rfl
  rw [hbody, hbody, quoted_digits h, quoted_digits h'] at heq
  have hlist := congrArg String.toList heq
  simp only [String.toList_append, String.toList_ofList, List.append_assoc, List.append_cancel_left_eq,
    List.cons_append] at hlist
  exact List.append_cancel_right (List.cons.inj hlist).2

/-- The request for a call is made from the call alone. -/
theorem Client.body_of_request? {client : Client} {c : Call} {request : Http.Request}
    (h : client.request? c = .ok request) : request.method = c.method ∧ request.body = c.body? := by
  unfold request? at h
  split at h
  · cases h
  · dsimp only at h
    split at h
    · cases h
    · split at h
      · cases h
      · split at h
        · cases h
        · cases h
          exact ⟨rfl, rfl⟩

end Vault

namespace Engine

variable {σ τ : Type} {settings : Settings} {env : Surroundings σ τ} {user : UserId} {e : Engine σ τ} {event : Event}
  {text : String} {code : Code}

/-- What is sent along with the calls that an event causes. -/
def bodies (settings : Settings) (env : Surroundings σ τ) (user : UserId) (event : Event) (e : Engine σ τ) :
    List String :=
  (e.exchanges settings env user event).filterMap fun x => x.call.body?

theorem bodies_eq (settings : Settings) (env : Surroundings σ τ) (user : UserId) (event : Event) (e : Engine σ τ) :
    e.bodies settings env user event =
      ((e.exchanges settings env user event).map Vault.Exchange.call).filterMap Vault.Call.body? := by
  rw [List.filterMap_map]
  rfl

theorem body_deleteAccount (username : String) (h : IsCode text code) :
    (Vault.Call.deleteAccount username code).body? =
      some (Vault.deletionBody username (unpadded (trim text.toList))) := by
  obtain ⟨hne, hdigits, rfl, -⟩ := h
  rw [← toDigits_eq_unpadded hne hdigits]
  rfl

theorem digits_unpadded {ds : List Char} (h : ∀ c ∈ ds, isDigit c = true) : ∀ c ∈ unpadded ds, isDigit c = true := by
  intro c hc
  obtain ⟨n, hn⟩ := exists_eq_replicate_append_unpadded ds
  apply h
  rw [hn]
  exact List.mem_append_right _ hc

theorem calls_of_isCode (hflow : e.flow user = .awaitingCode) (hline : event.line? = some text)
    (hcode : IsCode text code) :
    (e.exchanges settings env user event).map Vault.Exchange.call = [.deleteAccount user.username code] :=
  exchanges_of_deleteAccount (plan_deleteAccount_iff.2 ⟨hflow, text, hline, hcode⟩) e.world

theorem bodies_of_isCode (hflow : e.flow user = .awaitingCode) (hline : event.line? = some text)
    (hcode : IsCode text code) :
    e.bodies settings env user event = [Vault.deletionBody user.username (unpadded (trim text.toList))] := by
  rw [bodies_eq, calls_of_isCode hflow hline hcode, List.filterMap_cons, body_deleteAccount user.username hcode]
  rfl

/-- Two codes are written alike exactly if they have the same value. -/
theorem deletionBody_unpadded_iff {other : String} {otherCode : Code} (username : String) (h : IsCode text code)
    (hother : IsCode other otherCode) :
    Vault.deletionBody username (unpadded (trim text.toList)) =
      Vault.deletionBody username (unpadded (trim other.toList)) ↔ code = otherCode := by
  obtain ⟨hne, hall, rfl, -⟩ := h
  obtain ⟨hotherNe, hotherAll, rfl, -⟩ := hother
  rw [Vault.deletionBody_inj (digits_unpadded hall) (digits_unpadded hotherAll), ← toDigits_eq_unpadded hne hall,
    ← toDigits_eq_unpadded hotherNe hotherAll]
  constructor
  · intro heq
    have hvalue := congrArg (digitsValue 0) heq
    rwa [digitsValue_toDigits, digitsValue_toDigits] at hvalue
  · exact congrArg _

/-- A line that is accepted as a code makes one request, which carries the digits of the line without the zeros in
front.  These are the digits as they were typed exactly if there are no such zeros, and another code makes the same
request exactly if it has the same value. -/
theorem deletion_code_unpadded (hflow : e.flow user = .awaitingCode) (hline : event.line? = some text)
    (hcode : IsCode text code) :
    let digits := unpadded (trim text.toList)
    e.bodies settings env user event = [Vault.deletionBody user.username digits] ∧
    (∀ call ∈ (e.exchanges settings env user event).map Vault.Exchange.call, ∀ (client : Vault.Client) request,
      client.request? call = .ok request →
        request.method = .delete ∧ request.body = some (Vault.deletionBody user.username digits)) ∧
    (∃ n, trim text.toList = List.replicate n '0' ++ digits) ∧
    (Vault.deletionBody user.username digits = Vault.deletionBody user.username (trim text.toList) ↔
      ¬ Padded (trim text.toList)) ∧
    ∀ other otherCode, IsCode other otherCode →
      (Vault.deletionBody user.username digits =
        Vault.deletionBody user.username (unpadded (trim other.toList)) ↔ code = otherCode) := by
  intro digits
  have hdigits : ∀ c ∈ digits, isDigit c = true := digits_unpadded hcode.2.1
  refine ⟨bodies_of_isCode hflow hline hcode, ?_, exists_eq_replicate_append_unpadded _, ?_,
    fun _ _ hother => deletionBody_unpadded_iff user.username hcode hother⟩
  · intro call hcall client request hrequest
    rw [calls_of_isCode hflow hline hcode, List.mem_singleton] at hcall
    subst hcall
    obtain ⟨hmethod, hsent⟩ := Vault.Client.body_of_request? hrequest
    exact ⟨hmethod, hsent.trans (body_deleteAccount user.username hcode)⟩
  · rw [Vault.deletionBody_inj hdigits hcode.2.1]
    exact unpadded_eq_self_iff

/-- Zeros in front of a code of six digits, between blanks. -/
theorem deletion_code_unpadded_six :
    let env := Surroundings.plain storageCache (.granting ⟨"token"⟩)
    let e : Engine Storage Unit := ⟨.insert ∅ ⟨5⟩ .awaitingCode, ⟨.memory ∅, (), 0⟩⟩
    e.flow ⟨5⟩ = .awaitingCode ∧ (Event.ofLine " 000123\n").line? = some " 000123\n" ∧ IsCode " 000123\n" 123 ∧
      e.bodies ⟨⟨60⟩, .always, 16⟩ env ⟨5⟩ (.ofLine " 000123\n") =
        ["\x7b\"username\":\"5\",\"totp_code\":\"123\"\x7d"] := by
  intro env e
  have hflow : e.flow ⟨5⟩ = .awaitingCode := by decide +kernel
  have hline : (Event.ofLine " 000123\n").line? = some " 000123\n" := by decide +kernel
  have hcode : IsCode " 000123\n" 123 := parseCode_eq_some_iff.1 (by decide +kernel)
  refine ⟨hflow, hline, hcode, ?_⟩
  rw [(deletion_code_unpadded hflow hline hcode).1]
  decide +kernel

/-- Not every code is sent as it was typed: the zeros of "000123" are lost, and "123" makes the same request. -/
theorem padded_code_cut :
    let settings : Settings := ⟨⟨60⟩, .always, 16⟩
    let env := Surroundings.plain storageCache (.granting ⟨"token"⟩)
    let e : Engine Storage Unit := ⟨.insert ∅ ⟨5⟩ .awaitingCode, ⟨.memory ∅, (), 0⟩⟩
    e.bodies settings env ⟨5⟩ (.ofLine "000123") = e.bodies settings env ⟨5⟩ (.ofLine "123") ∧
      ¬ ∀ (user : UserId) (event : Event) (text : String) (code : Code),
        e.flow user = .awaitingCode → event.line? = some text → IsCode text code →
          e.bodies settings env user event = [Vault.deletionBody user.username (trim text.toList)] := by
  intro settings env e
  have hflow : e.flow ⟨5⟩ = .awaitingCode := by decide +kernel
  have hpadded : IsCode "000123" 123 := parseCode_eq_some_iff.1 (by decide +kernel)
  have hplain : IsCode "123" 123 := parseCode_eq_some_iff.1 (by decide +kernel)
  have hpaddedLine : (Event.ofLine "000123").line? = some "000123" := by decide +kernel
  have hplainLine : (Event.ofLine "123").line? = some "123" := by decide +kernel
  have hsent : e.bodies settings env ⟨5⟩ (.ofLine "000123") = _ := bodies_of_isCode hflow hpaddedLine hpadded
  constructor
  · rw [hsent, bodies_of_isCode hflow hplainLine hplain, (deletionBody_unpadded_iff _ hpadded hplain).2 rfl]
  · intro h
    have htyped := h _ _ _ _ hflow hpaddedLine hpadded
    have hbody := List.singleton_inj.1 (hsent.symm.trans htyped)
    have hsame := (Vault.deletionBody_inj (digits_unpadded hpadded.2.1) hpadded.2.1).1 hbody
    exact unpadded_eq_self_iff.1 hsame ⟨'0', "0123".toList, by decide +kernel⟩

end Engine

end VaultChat
