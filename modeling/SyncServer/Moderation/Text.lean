import SyncServer.Base.Errors
import SyncServer.Base.Text

/-! # Objectionable text -/

namespace SyncServer.Moderation

def blockedTerms : List String :=
  ["child porn", "cp", "cunt", "faggot", "fuck", "fucker", "fucking", "kill yourself", "kike",
    "nigger", "nigga", "rape", "rapist", "retard", "shit"]

/-- The maximal runs of ASCII letters and digits. -/
def tokens (s : String) : List String :=
  ((s.toList.splitOnP (fun c => !c.isAlphanum)).filter (· ≠ [])).map String.ofList

/-- `detect_blocked_term`: phrases are searched as text, single words among the tokens. -/
def detectBlockedTerm (unicode : Unicode) (value : String) : Option String :=
  let lowercase := unicode.toLowercase (trim value)
  if lowercase = "" then none
  else blockedTerms.find? (fun term =>
    if ' ' ∈ term.toList then containsText lowercase term else term ∈ tokens lowercase)

/-- `ensure_text_is_allowed`. -/
def ensureTextIsAllowed (unicode : Unicode) (fieldName value : String) : Except AppError Unit :=
  match detectBlockedTerm unicode value with
  | some term => .error (.badRequest (fieldName ++ " contains objectionable content ('" ++ term ++ "')"))
  | none => .ok ()

end SyncServer.Moderation
