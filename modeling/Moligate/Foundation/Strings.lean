import Mathlib.Data.List.Basic

namespace Moligate.Foundation.Strings

def hasPrefix (s p : String) : Bool := p.toList.isPrefixOf s.toList

def hasSuffix (s p : String) : Bool := p.toList.isSuffixOf s.toList

def contains (s p : String) : Bool := s.toList.tails.any p.toList.isPrefixOf

def trimPrefix (s p : String) : String :=
  if hasPrefix s p then String.ofList (s.toList.drop p.toList.length) else s

def trimSuffix (s p : String) : String :=
  if hasSuffix s p then String.ofList (s.toList.take (s.toList.length - p.toList.length)) else s

def cut (sep : List Char) : List Char → Option (List Char × List Char)
  | [] => none
  | c :: cs =>
    if sep.isPrefixOf (c :: cs) then some ([], (c :: cs).drop sep.length)
    else (cut sep cs).map fun (before, after) ↦ (c :: before, after)

def splitUpTo (sep : List Char) : ℕ → List Char → List (List Char)
  | 0, s => [s]
  | n + 1, s =>
    match cut sep s with
    | none => [s]
    | some (before, after) => before :: splitUpTo sep n after

def split (s sep : String) : List String :=
  (splitUpTo sep.toList s.toList.length s.toList).map String.ofList

def replaceFirst (s old new : String) : String :=
  match cut old.toList s.toList with
  | none => s
  | some (before, after) => String.ofList (before ++ new.toList ++ after)

def trim (s : String) (c : Char) : String :=
  String.ofList (((s.toList.dropWhile (· = c)).reverse.dropWhile (· = c)).reverse)

def without (s : String) (c : Char) : String := String.ofList (s.toList.filter (· ≠ c))

def isSpace (c : Char) : Bool :=
  c.val ∈ [0x09, 0x0A, 0x0B, 0x0C, 0x0D, 0x20, 0x85, 0xA0, 0x1680, 0x2028, 0x2029, 0x202F, 0x205F,
    0x3000] || 0x2000 ≤ c.val && c.val ≤ 0x200A

def trimSpace (s : String) : String :=
  String.ofList (((s.toList.dropWhile isSpace).reverse.dropWhile isSpace).reverse)

def dropBytes : ℕ → List Char → List Char
  | 0, cs => cs
  | _, [] => []
  | n + 1, c :: cs => dropBytes (n + 1 - c.utf8Size) cs

/-- `s[n:]` for an offset in bytes at which a character starts. -/
def sliceFrom (s : String) (n : ℕ) : String := String.ofList (dropBytes n s.toList)

theorem sliceFrom_zero {s : String} : sliceFrom s 0 = s := by
  simp [sliceFrom, dropBytes]

variable {α : Type*} (f : α → String)

def joined : List α → String
  | [] => ""
  | a :: as => f a ++ joined as

variable {f} {as bs : List α}

theorem joined_append : joined f (as ++ bs) = joined f as ++ joined f bs := by
  induction as with
  | nil => simp [joined]
  | cons a as ih => simp [joined, ih, String.append_assoc]

theorem joined_of_empty (h : ∀ a ∈ as, f a = "") : joined f as = "" := by
  induction as with
  | nil => rfl
  | cons a as ih =>
    obtain ⟨ha, has⟩ := List.forall_mem_cons.1 h
    rw [joined, ha, ih has, String.empty_append]

theorem joined_eq_empty (h : joined f as = "") : ∀ a ∈ as, f a = "" := by
  induction as with
  | nil => simp
  | cons a as ih =>
    rw [joined, String.append_eq_empty_iff] at h
    exact List.forall_mem_cons.2 ⟨h.1, ih h.2⟩

theorem joined_filter {p : α → Bool} (h : ∀ a, p a = false → f a = "") :
    joined f (as.filter p) = joined f as := by
  induction as with
  | nil => rfl
  | cons a as ih =>
    cases hp : p a with
    | false => rw [List.filter_cons_of_neg (Bool.eq_false_iff.1 hp), ih, joined, h a hp,
        String.empty_append]
    | true => rw [List.filter_cons_of_pos hp, joined, joined, ih]

end Moligate.Foundation.Strings
