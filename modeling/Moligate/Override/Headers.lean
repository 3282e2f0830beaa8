import Mathlib.Data.List.AList
import Moligate.Foundation.Call
import Moligate.Foundation.Strings

namespace Moligate.Override

open Foundation Foundation.Strings

/-- A value of a header mapping. What `%v` prints of a number is its `text`. -/
inductive Value
  | nil | map
  | string (raw : String) | strings (raw : List String) | array (raw : List Value)
  | bool (raw : Bool) | number (text : String)

abbrev Mapping := AList fun _ : String ↦ Value

def splitHeaderListValue (raw : String) : List String :=
  ((split raw ",").map trimSpace).filter (· ≠ "")

mutual

def parseHeaderReplacementTokens : Value → Except String (List String)
  | .nil => .ok []
  | .string raw => .ok (splitHeaderListValue raw)
  | .strings raw => .ok (raw.flatMap splitHeaderListValue).eraseDups
  | .array raw => (parseItems raw).map (·.eraseDups)
  | .map => .error "header replacement value must be string, array or null"
  | .bool raw => .ok [toString raw]
  | .number text => .ok ([trimSpace text].filter (· ≠ ""))

def parseItems : List Value → Except String (List String)
  | [] => .ok []
  | item :: raw => do return (← parseHeaderReplacementTokens item) ++ (← parseItems raw)

end

def parseHeaderAppendTokens (mapping : Mapping) : Except String (List String) :=
  match mapping.lookup "$append" with
  | none => .ok []
  | some raw => parseHeaderReplacementTokens raw

def parseHeaderKeepOnlyDeclared (mapping : Mapping) : Bool :=
  match mapping.lookup "$keep_only_declared" with
  | some (.bool keep) => keep
  | _ => false

/-- What the loop over the client's tokens appends for one of them. -/
def replaceToken (mapping : Mapping) (token : String) : Except String (List String) :=
  match mapping.lookup token, mapping.lookup "*", parseHeaderKeepOnlyDeclared mapping with
  | some raw, _, _ | none, some raw, false => parseHeaderReplacementTokens raw
  | none, _, true => .ok []
  | none, none, false => .ok [token]

/-- `sourceValue` is what the request context has under the header's name. -/
def resolveHeaderOverrideValueByMapping (mapping : Mapping) (sourceValue : Option String) :
    Except String (Option String) := do
  if mapping.entries.isEmpty then throw "header value mapping cannot be empty"
  let appendTokens ← parseHeaderAppendTokens mapping
  let replaced ← (sourceValue.elim [] splitHeaderListValue).foldlM
    (fun result token ↦ return result ++ (← replaceToken mapping token)) []
  let resultTokens := (replaced ++ appendTokens).eraseDups
  return if resultTokens.isEmpty then none else some (",".intercalate resultTokens)

variable {mapping : Mapping} {token : String}

theorem mem_of_replaceTokens {tokens result out : List String}
    (h : tokens.foldlM (fun result token ↦ return result ++ (← replaceToken mapping token)) result =
      .ok out) (hmem : token ∈ out) :
    token ∈ result ∨
      ∃ key ∈ tokens, ∃ replaced, replaceToken mapping key = .ok replaced ∧ token ∈ replaced := by
  induction tokens generalizing result with
  | nil =>
    cases h
    exact .inl hmem
  | cons key tokens ih =>
    obtain ⟨result', hkey, h⟩ := except_bind_eq_ok.1 h
    obtain ⟨replaced, hreplaced, hresult⟩ := except_bind_eq_ok.1 hkey
    cases hresult
    rcases ih h with hin | ⟨k, hk, hlater⟩
    · rw [List.mem_append] at hin
      exact hin.imp_right fun hin ↦ ⟨key, List.mem_cons_self, replaced, hreplaced, hin⟩
    · exact .inr ⟨k, List.mem_cons_of_mem _ hk, hlater⟩

/-- The token is appended, or the mapping declares it for an ordinary key the client sent. -/
def Declared (mapping : Mapping) (sourceValue : Option String) (token : String) : Prop :=
  (∃ appended, parseHeaderAppendTokens mapping = .ok appended ∧ token ∈ appended) ∨
  ∃ key ∈ sourceValue.elim [] splitHeaderListValue,
    key ∉ ["*", "$append", "$keep_only_declared"] ∧ ∃ raw replaced,
      mapping.lookup key = some raw ∧ parseHeaderReplacementTokens raw = .ok replaced ∧
      token ∈ replaced

private def allowing (key replacement : String) : Mapping :=
  (AList.singleton key (.string replacement)).insert "$keep_only_declared" (.bool true)

-- The mapping has no ordinary key and appends nothing.
end Moligate.Override
