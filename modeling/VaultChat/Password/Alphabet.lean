/-!
# The characters of generated passwords
-/

namespace VaultChat.Password

def letters : List Char := "abcdefghijklmnopqrstuvwxyzABCDEFGHIJKLMNOPQRSTUVWXYZ".toList

def digits : List Char := "0123456789".toList

def symbols : List Char := "!@#$%^&*()-_=+[]\x7b\x7d;:,.<>?".toList

/-- Every character that a generated password may hold. -/
def alphabet : List Char := letters ++ digits ++ symbols

def minLength : Nat := 8

def maxLength : Nat := 128

/-- The length of a password for which none is asked for. -/
def defaultLength : Nat := 16

end VaultChat.Password
