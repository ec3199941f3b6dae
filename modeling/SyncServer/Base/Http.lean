import SyncServer.Base.Text

/-! # URLs and HTTP requests

What the libraries for URLs and for HTTP hand to the server. A request carries the
properties that the HTTP parser ensures.
-/

namespace SyncServer

/-- A URL as the parser returns it. -/
structure Url where
  scheme : String
  host : Option String
  port : Option Nat
  pathSegments : Option (List String)
deriving DecidableEq, Repr

/-- A character of a token, which is what methods and header names consist of. -/
def isTokenChar (c : Char) : Bool :=
  c.isAlphanum || c ∈ "!#$%&'*+-.^_`|~".toList

/-- A header value, its bytes as the characters of the same number. -/
structure HeaderValue where
  text : String
  valid : ∀ c ∈ text.toList, c = '\t' ∨ (32 ≤ c.toNat ∧ c.toNat ≠ 127 ∧ c.toNat < 256)
deriving DecidableEq

/-- `HeaderValue::to_str`. -/
def HeaderValue.toStr (v : HeaderValue) : Except String String :=
  if v.text.toList.all (fun c => c.toNat < 127) then .ok v.text
  else .error "failed to convert header to a str"

structure HttpRequest where
  method : String
  pathAndQuery : String
  headers : List (String × HeaderValue)
  method_token : ∀ c ∈ method.toList, isTokenChar c = true
  path_visible : ∀ c ∈ pathAndQuery.toList, 32 < c.toNat
  names_token : ∀ h ∈ headers, ∀ c ∈ h.1.toList, isTokenChar c = true

theorem post_token : ∀ c ∈ "POST".toList, isTokenChar c = true := by decide

/-- `HeaderMap::get`: the first value of a header, whose name is in lower case. -/
def HttpRequest.header (req : HttpRequest) (name : String) : Option HeaderValue :=
  (req.headers.find? (fun h => h.1 = asciiLower name)).map Prod.snd

theorem isTokenChar_ascii {c : Char} (h : isTokenChar c = true) : c.toNat < 128 := by
  simp only [isTokenChar, Bool.or_eq_true, decide_eq_true_eq] at h
  rcases h with h | h
  · have hrange := isAlphanum_range h
    omega
  · revert c
    decide

theorem HttpRequest.token_of_header {req : HttpRequest} {name : String} {v : HeaderValue}
    (h : req.header name = some v) : ∀ c ∈ name.toList, isTokenChar c.toLower = true := by
  obtain ⟨e, he, rfl⟩ := Option.map_eq_some_iff.mp h
  have hname : e.1 = asciiLower name := by simpa using List.find?_some he
  intro c hc
  apply req.names_token e (List.mem_of_find?_eq_some he)
  rw [hname, asciiLower, String.toList_ofList]
  exact List.mem_map_of_mem hc

end SyncServer
