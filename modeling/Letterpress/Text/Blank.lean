/-!
Blank characters and the cuts that templates make at them. Blank is the Unicode
property White_Space, all 25 characters of it. Sizes count the bytes of UTF-8,
the unit of every offset in this library.
-/

namespace Letterpress.Text

def isBlank (char : Char) : Bool :=
  let code := char.toNat
  (9 ≤ code && code ≤ 13) || code == 0x20 || code == 0x85 || code == 0xA0 || code == 0x1680 ||
    (0x2000 ≤ code && code ≤ 0x200A) || code == 0x2028 || code == 0x2029 || code == 0x202F ||
    code == 0x205F || code == 0x3000

def byteSize : List Char → Nat
  | [] => 0
  | char :: rest => char.utf8Size + byteSize rest

@[simp] theorem byteSize_nil : byteSize [] = 0 := rfl

@[simp] theorem byteSize_cons (char : Char) (rest : List Char) :
    byteSize (char :: rest) = char.utf8Size + byteSize rest := rfl

@[simp] theorem byteSize_append (front back : List Char) :
    byteSize (front ++ back) = byteSize front + byteSize back := by
  induction front with
  | nil => simp
  | cons char rest ih => simp [ih, Nat.add_assoc]

def trimStart (chars : List Char) : List Char := chars.dropWhile isBlank

def trimEnd (chars : List Char) : List Char := (chars.reverse.dropWhile isBlank).reverse

def trim (chars : List Char) : List Char := trimEnd (trimStart chars)

/-- Cuts at the first blank, which belongs to neither side. Without a blank the
second side is empty. -/
def cutAtBlank : List Char → List Char × List Char
  | [] => ([], [])
  | char :: rest =>
      if isBlank char then ([], rest)
      else ((char :: (cutAtBlank rest).1), (cutAtBlank rest).2)

def firstWord (chars : List Char) : List Char :=
  (trimStart chars).takeWhile (fun char => !isBlank char)

def between? (quote : Char) : List Char → Option (List Char)
  | [] => none
  | first :: rest =>
      if first = quote then
        match rest.reverse with
        | [] => none
        | last :: middle => if last = quote then some middle.reverse else none
      else none

/-- Trims and then drops one pair of quotes, double ones before single ones. -/
def unquote (chars : List Char) : List Char :=
  let inner := trim chars
  match between? '"' inner with
  | some text => text
  | none =>
      match between? '\'' inner with
      | some text => text
      | none => inner

end Letterpress.Text
