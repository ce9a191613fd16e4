import VaultChat.Console.Arguments
import VaultChat.Proofs.Numeral

/-!
# The grammar of the command line

Arguments come in groups: the switch to the console stands alone, and the option for the user has the argument behind
it for its value, whatever that looks like.  What follows the groups decides the outcome (`Ending`), and with it the
whole outcome is known (`parseArguments_eq_iff`).  `invocation_grammar` says which lists of arguments run the gateway,
and how, which ask for help or for the version, and that all others are refused.
-/

namespace VaultChat.Console

open Text

/-! ### Flags and groups -/

inductive Flag where
  | console
  | user
  | help
  | version
  deriving DecidableEq

namespace Flag

/-- How a flag is written. -/
def Written : Flag → String → Prop
  | console, arg => arg = "--cli" ∨ arg = "-c"
  | user, arg => arg = "--user" ∨ arg = "-u"
  | help, arg => arg = "--help" ∨ arg = "-h"
  | version, arg => arg = "--version" ∨ arg = "-v"

instance : (f : Flag) → (arg : String) → Decidable (f.Written arg)
  | console, _ | user, _ | help, _ | version, _ => inferInstanceAs (Decidable (_ ∨ _))

/-- No two flags are written alike. -/
theorem Written.not_written {f g : Flag} {arg : String} (h : f.Written arg) (hne : g ≠ f) : ¬ g.Written arg := by
  cases f <;> rcases h with rfl | rfl <;> cases g <;> first | exact absurd rfl hne | decide

/-- The dash that a flag starts with is no digit. -/
theorem Written.readNatural_eq {f : Flag} {arg : String} (h : f.Written arg) (bound : Nat) :
    readNatural bound arg.toList = .error .invalidDigit := by
  cases f <;> rcases h with rfl | rfl <;> rfl

/-- What is given for a flag at once, whatever follows it. -/
def answer? : Flag → Option Invocation
  | help => some .help
  | version => some .version
  | console | user => none

theorem eq_of_answer? {f g : Flag} {i : Invocation} (hf : f.answer? = some i) (hg : g.answer? = some i) : f = g := by
  cases f <;> cases hf <;> cases g <;> first | rfl | cases hg

end Flag

/-- What a group of arguments asks for. -/
inductive Group where
  | console
  | user (id : UserId)
  deriving DecidableEq

namespace Group

def user? : Group → Option UserId
  | console => none
  | user id => some id

/-- The mode that groups ask for, with the mode that there is without them. -/
def modeOf (mode : RunMode) (gs : List Group) : RunMode := if console ∈ gs then .console else mode

/-- The last user that groups ask for. -/
def lastUser? (gs : List Group) : Option UserId := (gs.filterMap user?).getLast?

theorem modeOf_console (mode : RunMode) (gs : List Group) : modeOf mode (console :: gs) = modeOf .console gs := by
  rw [modeOf, modeOf, if_pos List.mem_cons_self, ite_self]

theorem modeOf_user (mode : RunMode) (id : UserId) (gs : List Group) :
    modeOf mode (user id :: gs) = modeOf mode gs := by
  simp [modeOf]

theorem modeOf_eq_console_iff {gs : List Group} : modeOf .server gs = .console ↔ console ∈ gs := by
  by_cases h : console ∈ gs <;> simp [modeOf, h]

theorem lastUser?_user_or (id : UserId) (gs : List Group) (user : Option UserId) :
    (lastUser? (.user id :: gs)).or user = (lastUser? gs).or (some id) := by
  have hlast : lastUser? (.user id :: gs) = some ((lastUser? gs).getD id) := List.getLast?_cons
  rw [hlast]
  cases lastUser? gs <;> rfl

theorem lastUser?_ne_none_iff {gs : List Group} : lastUser? gs ≠ none ↔ ∃ id, user id ∈ gs := by
  rw [lastUser?, ne_eq, List.getLast?_eq_none_iff, List.filterMap_eq_nil_iff]
  constructor
  · intro h
    obtain ⟨g, hg⟩ := Classical.not_forall.1 h
    obtain ⟨hg, hid⟩ := Classical.not_imp.1 hg
    cases g with
    | console => exact absurd rfl hid
    | user id => exact ⟨id, hg⟩
  · rintro ⟨id, hid⟩ h
    cases h _ hid

end Group

/-- The arguments spell these groups, one after another. -/
inductive Spells : List Group → List String → Prop where
  | nil : Spells [] []
  | console {arg : String} {gs : List Group} {args : List String} (hflag : Flag.console.Written arg)
      (h : Spells gs args) : Spells (.console :: gs) (arg :: args)
  | user {arg value : String} {id : UserId} {gs : List Group} {args : List String} (hflag : Flag.user.Written arg)
      (hvalue : IsNatural maxUnsigned64 value.toList id.number.toNat) (h : Spells gs args) :
      Spells (.user id :: gs) (arg :: value :: args)

/-! ### What follows the groups -/

/-- What the arguments after the groups come to, with the mode and the user that the groups ask for. -/
inductive Ending (mode : RunMode) (user : Option UserId) : List String → Except ArgumentFault Invocation → Prop where
  | run (h : ¬ (mode = .console ∧ user = none)) : Ending mode user [] (.ok (.run mode user))
  | consoleWithoutUser (h : mode = .console ∧ user = none) : Ending mode user [] (.error .consoleWithoutUser)
  | answer {f : Flag} {i : Invocation} {arg : String} {rest : List String} (hf : f.answer? = some i)
      (h : f.Written arg) : Ending mode user (arg :: rest) (.ok i)
  | missingUser {arg : String} (h : Flag.user.Written arg) : Ending mode user [arg] (.error .missingUser)
  | invalidUser {arg value : String} {rest : List String} {fault : NumeralFault} (h : Flag.user.Written arg)
      (hvalue : readNatural maxUnsigned64 value.toList = .error fault) :
      Ending mode user (arg :: value :: rest) (.error (.invalidUser value fault))
  | unknownArgument {arg : String} {rest : List String} (h : ∀ f : Flag, ¬ f.Written arg) :
      Ending mode user (arg :: rest) (.error (.unknownArgument arg))

section reading

variable {mode : RunMode} {user : Option UserId} {arg value : String} {gs : List Group}
  {args before rest : List String} {r : Except ArgumentFault Invocation}

theorem readArguments_of_console (h : Flag.console.Written arg) :
    readArguments mode user (arg :: rest) = readArguments .console user rest := by
  rw [readArguments.eq_def]
  exact if_pos h

theorem readArguments_of_user {id : UserId} (h : Flag.user.Written arg)
    (hvalue : IsNatural maxUnsigned64 value.toList id.number.toNat) :
    readArguments mode user (arg :: value :: rest) = readArguments mode (some id) rest := by
  have hid : (⟨id.number.toNat.toUInt64⟩ : UserId) = id := congrArg UserId.mk UInt64.ofNat_toNat
  rw [readArguments.eq_def]
  dsimp only
  rw [readNatural_eq_ok_iff.2 hvalue]
  dsimp only
  rw [hid]
  exact (if_neg (h.not_written (g := .console) nofun)).trans (if_pos h)

/-- What was read of the groups is kept in the mode and the user. -/
theorem readArguments_append (h : Spells gs before) : readArguments mode user (before ++ rest) =
    readArguments (Group.modeOf mode gs) ((Group.lastUser? gs).or user) rest := by
  induction h generalizing mode user with
  | nil => rfl
  | console hflag _ ih =>
    rw [List.cons_append, readArguments_of_console hflag, ih, Group.modeOf_console]
    rfl
  | user hflag hvalue _ ih =>
    rw [List.cons_append, List.cons_append, readArguments_of_user hflag hvalue, ih, Group.modeOf_user,
      Group.lastUser?_user_or]

theorem Ending.readArguments_eq (h : Ending mode user args r) : readArguments mode user args = r := by
  rw [readArguments.eq_def]
  cases h with
  | run h => exact if_neg h
  | consoleWithoutUser h => exact if_pos h
  | @answer f _ _ _ hf h =>
    cases f with
    | help =>
      cases hf
      exact (if_neg (h.not_written (g := .console) nofun)).trans <|
        (if_neg (h.not_written (g := .user) nofun)).trans (if_pos h)
    | version =>
      cases hf
      exact (if_neg (h.not_written (g := .console) nofun)).trans <|
        (if_neg (h.not_written (g := .user) nofun)).trans <|
          (if_neg (h.not_written (g := .help) nofun)).trans (if_pos h)
    | console | user => cases hf
  | missingUser h => exact (if_neg (h.not_written (g := .console) nofun)).trans (if_pos h)
  | invalidUser h hvalue =>
    dsimp only
    rw [hvalue]
    exact (if_neg (h.not_written (g := .console) nofun)).trans (if_pos h)
  | unknownArgument h =>
    exact (if_neg (h .console)).trans <| (if_neg (h .user)).trans <| (if_neg (h .help)).trans (if_neg (h .version))

/-- Every list of arguments is a series of groups, which may be empty, and an ending. -/
theorem exists_ending (mode : RunMode) (user : Option UserId) (args : List String) : ∃ gs before rest r,
    Spells gs before ∧ args = before ++ rest ∧
      Ending (Group.modeOf mode gs) ((Group.lastUser? gs).or user) rest r := by
  induction mode, user, args using readArguments.induct with
  | case1 mode user h => exact ⟨[], [], [], _, .nil, rfl, .consoleWithoutUser h⟩
  | case2 mode user h => exact ⟨[], [], [], _, .nil, rfl, .run h⟩
  | case3 mode user arg rest h ih =>
    obtain ⟨gs, before, rest, r, hgs, rfl, hending⟩ := ih
    refine ⟨.console :: gs, arg :: before, rest, r, .console h hgs, rfl, ?_⟩
    rwa [Group.modeOf_console]
  | case4 mode user arg hconsole h => exact ⟨[], [], [arg], _, .nil, rfl, .missingUser h⟩
  | case5 mode user arg hconsole h value rest n hvalue ih =>
    obtain ⟨gs, before, rest, r, hgs, rfl, hending⟩ := ih
    have hvalue := readNatural_eq_ok_iff.1 hvalue
    have hn : n.toUInt64.toNat = n := UInt64.toNat_ofNat_of_lt' (Nat.lt_succ_of_le hvalue.le)
    refine ⟨.user ⟨n.toUInt64⟩ :: gs, arg :: value :: before, rest, r, .user h (by rwa [hn]) hgs, rfl, ?_⟩
    rwa [Group.modeOf_user, Group.lastUser?_user_or]
  | case6 mode user arg hconsole h value rest fault hvalue =>
    exact ⟨[], [], arg :: value :: rest, _, .nil, rfl, .invalidUser h hvalue⟩
  | case7 mode user arg rest hconsole huser h =>
    exact ⟨[], [], arg :: rest, _, .nil, rfl, .answer (f := .help) rfl h⟩
  | case8 mode user arg rest hconsole huser hhelp h =>
    exact ⟨[], [], arg :: rest, _, .nil, rfl, .answer (f := .version) rfl h⟩
  | case9 mode user arg rest hconsole huser hhelp hversion =>
    refine ⟨[], [], arg :: rest, _, .nil, rfl, .unknownArgument ?_⟩
    intro f
    cases f with
    | console => exact hconsole
    | user => exact huser
    | help => exact hhelp
    | version => exact hversion

end reading

/-- The outcome is that of the ending, with what the groups before it ask for. -/
theorem parseArguments_eq_iff {args : List String} {r : Except ArgumentFault Invocation} :
    parseArguments args = r ↔ ∃ gs before rest, Spells gs before ∧ args = before ++ rest ∧
      Ending (Group.modeOf .server gs) (Group.lastUser? gs) rest r := by
  have hread {gs before rest r} (hgs : Spells gs before)
      (hending : Ending (Group.modeOf .server gs) (Group.lastUser? gs) rest r) :
      parseArguments (before ++ rest) = r := by
    rw [parseArguments, readArguments_append hgs, Option.or_none, hending.readArguments_eq]
  constructor
  · rintro rfl
    obtain ⟨gs, before, rest, r, hgs, rfl, hending⟩ := exists_ending .server none args
    rw [Option.or_none] at hending
    rw [hread hgs hending]
    exact ⟨gs, before, rest, hgs, rfl, hending⟩
  · rintro ⟨gs, before, rest, hgs, rfl, hending⟩
    exact hread hgs hending

/-! ### The grammar -/

/-- The arguments are groups up to the flag `f`, whatever follows it. -/
def StopsAt (f : Flag) (args : List String) : Prop :=
  ∃ gs before arg rest, Spells gs before ∧ f.Written arg ∧ args = before ++ arg :: rest

/-- The arguments are groups throughout that ask for this mode and this user, and the console is not asked for without
a user. -/
structure Runs (args : List String) (mode : RunMode) (user : Option UserId) (gs : List Group) : Prop where
  spelled : Spells gs args
  mode_iff : mode = .console ↔ .console ∈ gs
  user_eq : user = Group.lastUser? gs
  user_of_console : .console ∈ gs → ∃ id, .user id ∈ gs

variable {args : List String}

theorem parseArguments_eq_run_iff {mode : RunMode} {user : Option UserId} :
    parseArguments args = .ok (.run mode user) ↔ ∃ gs, Runs args mode user gs := by
  rw [parseArguments_eq_iff]
  constructor
  · rintro ⟨gs, before, rest, hgs, rfl, hending⟩
    cases hending with
    | run h =>
      rw [List.append_nil]
      refine ⟨gs, hgs, Group.modeOf_eq_console_iff, rfl, fun hconsole =>
        Group.lastUser?_ne_none_iff.1 fun hnone => ?_⟩
      exact h ⟨Group.modeOf_eq_console_iff.2 hconsole, hnone⟩
    | @answer f _ _ _ hf => cases f <;> cases hf
  · rintro ⟨gs, hgs, hmode, rfl, huser⟩
    have hmodeOf : Group.modeOf .server gs = mode := by
      by_cases hconsole : Group.console ∈ gs
      · rw [Group.modeOf, if_pos hconsole, hmode.2 hconsole]
      · cases mode with
        | server => rw [Group.modeOf, if_neg hconsole]
        | console => exact absurd (hmode.1 rfl) hconsole
    refine ⟨gs, args, [], hgs, (List.append_nil args).symm, ?_⟩
    rw [hmodeOf]
    exact .run fun ⟨hconsole, hnone⟩ => Group.lastUser?_ne_none_iff.2 (huser (hmode.1 hconsole)) hnone

theorem parseArguments_eq_answer_iff {f : Flag} {i : Invocation} (hf : f.answer? = some i) :
    parseArguments args = .ok i ↔ StopsAt f args := by
  rw [parseArguments_eq_iff]
  constructor
  · rintro ⟨gs, before, rest, hgs, rfl, hending⟩
    cases hending with
    | run => cases f <;> cases hf
    | answer hg h =>
      obtain rfl := Flag.eq_of_answer? hf hg
      exact ⟨gs, before, _, _, hgs, h, rfl⟩
  · rintro ⟨gs, before, arg, rest, hgs, h, rfl⟩
    exact ⟨gs, before, arg :: rest, hgs, rfl, .answer hf h⟩

/-- Which arguments run the gateway, and in which mode and for whom; which ones ask for help or for the version; and
that all others are refused.  Hence the console always has a user, and a flag in the place of a user's number is no
flag: the reading ends there. -/
theorem invocation_grammar (args : List String) :
    (∀ mode user, parseArguments args = .ok (.run mode user) ↔ ∃ gs, Runs args mode user gs) ∧
    (parseArguments args = .ok .help ↔ StopsAt .help args) ∧
    (parseArguments args = .ok .version ↔ StopsAt .version args) ∧
    ((∃ fault, parseArguments args = .error fault) ↔
      (∀ mode user gs, ¬ Runs args mode user gs) ∧ ¬ StopsAt .help args ∧ ¬ StopsAt .version args) ∧
    (∀ user, parseArguments args = .ok (.run .console user) → ∃ id, user = some id) ∧
    ∀ gs before arg value rest, ∀ f : Flag, Spells gs before → Flag.user.Written arg → f.Written value →
      args = before ++ arg :: value :: rest → parseArguments args = .error (.invalidUser value .invalidDigit) := by
  have hhelp : parseArguments args = .ok .help ↔ StopsAt .help args := parseArguments_eq_answer_iff rfl
  have hversion : parseArguments args = .ok .version ↔ StopsAt .version args := parseArguments_eq_answer_iff rfl
  refine ⟨fun _ _ => parseArguments_eq_run_iff, hhelp, hversion, ?_, ?_, ?_⟩
  · simp only [← hhelp, ← hversion, ← not_exists, ← parseArguments_eq_run_iff]
    rcases parseArguments args with fault | ⟨mode, user⟩ | _ | _ <;> simp
  · intro user h
    obtain ⟨gs, -, hmode, rfl, huser⟩ := parseArguments_eq_run_iff.1 h
    exact Option.ne_none_iff_exists'.1 (Group.lastUser?_ne_none_iff.2 (huser (hmode.1 rfl)))
  · rintro gs before arg value rest f hgs harg hvalue rfl
    exact parseArguments_eq_iff.2 ⟨gs, before, _, hgs, rfl, .invalidUser harg (hvalue.readNatural_eq maxUnsigned64)⟩

/-- Nobody reads what stands behind a flag for the version. -/
example : parseArguments ["--cli", "-u", "+7", "-v", "--user", "--bogus"] = .ok .version := rfl

end VaultChat.Console
