import EchoMetrics.Text.Blank

/-! # Quoted text

A text inside a message stands between quotes, with everything that would not show on a terminal
written as an escape. -/

namespace EchoMetrics.Text

/-- Blanks other than the space, controls, formatting characters and private use. -/
def isHidden (c : Char) : Bool :=
  let n := c.toNat
  (isBlank c && c != ' ') || n < 0x20 || (0x7F ≤ n && n ≤ 0xA0) || n == 0xAD ||
    (0x600 ≤ n && n ≤ 0x605) || n == 0x61C || n == 0x6DD || n == 0x70F || n == 0x890 ||
    n == 0x891 || n == 0x8E2 || n == 0x180E || (0x200B ≤ n && n ≤ 0x200F) ||
    (0x202A ≤ n && n ≤ 0x202E) || (0x2060 ≤ n && n ≤ 0x206F) || (0xE000 ≤ n && n ≤ 0xF8FF) ||
    n == 0xFEFF || (0xFFF0 ≤ n && n ≤ 0xFFFB) || n == 0xFFFE || n == 0xFFFF || n == 0x110BD ||
    n == 0x110CD || (0x13430 ≤ n && n ≤ 0x13438) || (0x1BCA0 ≤ n && n ≤ 0x1BCA3) ||
    (0x1D173 ≤ n && n ≤ 0x1D17A) || (0xE0000 ≤ n && !(0xE0100 ≤ n && n ≤ 0xE01EF))

/-- The last `width` hexadecimal digits of `n`, in lower case. -/
def hex : Nat → Nat → List Char
  | 0, _ => []
  | width + 1, n => hex width (n / 16) ++ [Nat.digitChar (n % 16)]

@[simp] theorem length_hex (width n : Nat) : (hex width n).length = width := by
  induction width generalizing n with
  | zero => rfl
  | succ width ih => simp [hex, ih]

/-- The narrowest escape that holds the code point: two, four or eight digits. -/
def escapeHidden (c : Char) : List Char :=
  if c.toNat < 0x100 then '\\' :: 'x' :: hex 2 c.toNat
  else if c.toNat < 0x10000 then '\\' :: 'u' :: hex 4 c.toNat
  else '\\' :: 'U' :: hex 8 c.toNat

def escapeQuoted (quote c : Char) : List Char :=
  if c = quote || c = '\\' then ['\\', c]
  else if c = '\n' then ['\\', 'n']
  else if c = '\r' then ['\\', 'r']
  else if c = '\t' then ['\\', 't']
  else if isHidden c then escapeHidden c
  else [c]

/-- Single quotes, unless the text holds one and no double quote. -/
def quoteFor (cs : List Char) : Char :=
  if cs.contains '\'' && !cs.contains '"' then '"' else '\''

def quoted (s : String) : String :=
  let q := quoteFor s.toList
  String.ofList (q :: s.toList.flatMap (escapeQuoted q) ++ [q])

example : quoted "it's" = "\"it's\"" := by cbv
example : quoted "a\tb\\" = "'a\\tb\\\\'" := by cbv

end EchoMetrics.Text
