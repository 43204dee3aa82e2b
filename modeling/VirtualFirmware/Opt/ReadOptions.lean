import VirtualFirmware.Library.Bytes
import VirtualFirmware.Library.Words

/-!
# Reading an options file

`ReadOptions` reads words with `fscanf(f, "%s\n", line)` until the end of the file, cuts each at a
`#` and stores the value of a `key=value` in the field that the key names. `OPT` is the memory at
its address, laid out as the compiler lays out `struct options`, without a bound: `strcpy` knows
none. The local buffer `line` is the C string it holds; it is uninitialised at first, and a word
that does not fit it stops the model.
-/

namespace VirtualFirmware.Opt

open Library

/-- The bytes of a text. -/
abbrev Text := List UInt8

/-- The bytes of some ASCII characters. -/
def ascii (chars : List Char) : Text := chars.map fun c => UInt8.ofNat c.toNat

/-- The part of some bytes that is read as a C string. -/
def cString (bytes : Text) : Text := bytes.takeWhile (· ≠ 0)

/-- `isspace`. -/
def isSpace (c : UInt8) : Bool := c = 32 ∨ 9 ≤ c ∧ c ≤ 13

/-- `isdigit`. -/
def isDigit (c : UInt8) : Bool := 48 ≤ c ∧ c ≤ 57

/-- The character `#`. -/
def hash : UInt8 := 35

/-- The character `=`. -/
def equals : UInt8 := 61

/-- The character that ends a line. -/
def newline : UInt8 := 10

/-- `atoi`, as the conversion of what `strtol` returns: it stops at the ends of a 64-bit `long`. -/
def atoi (text : Text) : UInt32 :=
  let digits (text : Text) : ℕ :=
    (text.takeWhile isDigit).foldl (fun n c => 10 * n + (c.toNat - 48)) 0
  match text.dropWhile isSpace with
  | 45 :: rest => UInt32.ofInt (max (-2 ^ 63) (-(digits rest : Int)))
  | 43 :: rest => UInt32.ofInt (min (2 ^ 63 - 1) (digits rest))
  | rest => UInt32.ofInt (min (2 ^ 63 - 1) (digits rest))

/-- `OPTBUFLEN`. -/
def optBufLen : ℕ := 1024

/-- The fields of `struct options` that a file can set. -/
inductive Key where
  | mcastip
  | mcastport
  | magicnum
  | tcpport
  | timeout
  | dbglvl
deriving DecidableEq, Repr

namespace Key

/-- The name of the field, as the file writes it. -/
def name : Key → Text
  | mcastip => ascii ['m', 'c', 'a', 's', 't', 'i', 'p']
  | mcastport => ascii ['m', 'c', 'a', 's', 't', 'p', 'o', 'r', 't']
  | magicnum => ascii ['m', 'a', 'g', 'i', 'c', 'n', 'u', 'm']
  | tcpport => ascii ['t', 'c', 'p', 'p', 'o', 'r', 't']
  | timeout => ascii ['t', 'i', 'm', 'e', 'o', 'u', 't']
  | dbglvl => ascii ['d', 'b', 'g', 'l', 'v', 'l']

/-- Where the field starts; the numbers are aligned to four bytes. -/
def offset : Key → ℕ
  | mcastip => 0
  | mcastport => 16
  | magicnum => 24
  | tcpport => 28
  | timeout => 36
  | dbglvl => 40

/-- `sizeof` the field. -/
def size : Key → ℕ
  | mcastip => 16
  | mcastport => 6
  | magicnum => 4
  | tcpport => 6
  | timeout => 4
  | dbglvl => 4

/-- The fields that are strings. -/
def isText : Key → Bool
  | mcastip => true
  | mcastport => true
  | magicnum => false
  | tcpport => true
  | timeout => false
  | dbglvl => false

end Key

/-- Where the field `set` starts. -/
def setOffset : ℕ := 44

/-- `strcpy` to a field of `OPT`. -/
def strcpy (opt : Region) (key : Key) (value : Text) : Region :=
  opt.storeAt key.offset (value ++ [0])

/-- The assignment of a number to a field of `OPT`. -/
def assign (opt : Region) (key : Key) (value : UInt32) : Region :=
  opt.storeAt key.offset (leBytes 4 value.toNat)

/-- The initial values of `OPT`. -/
def initialOpt : List UInt8 :=
  ascii ['2', '3', '4', '.', '1', '.', '1', '.', '1', '0'] ++ List.replicate 6 0 ++
    (ascii ['9', '7', '5', '1'] ++ List.replicate 2 0) ++ List.replicate 2 0 ++
    leBytes 4 0xe1000 ++ (ascii ['9', '7', '5', '2'] ++ List.replicate 2 0) ++ List.replicate 2 0 ++
    leBytes 4 0 ++ leBytes 4 3 ++ leBytes 4 0

/-- `OPT` as the program starts, in some memory. -/
def defaultOpt (memory : Region) : Region := memory.store initialOpt

/-- What `strtok(line, "#")` leaves in the buffer: it skips each `#` at the front and cuts at the
next. -/
def strtok (line : Text) : Text :=
  line.takeWhile (· = hash) ++ (line.dropWhile (· = hash)).takeWhile (· ≠ hash)

/-- The body of the loop after `fscanf`: what it leaves in the buffer and in `OPT`. -/
def processLine (line : Text) (opt : Region) : Text × Region :=
  let line := strtok line
  match line.dropWhile (· ≠ equals) with
  | [] => (line, opt)
  | _ :: value =>
    let line := line.takeWhile (· ≠ equals)
    (line,
      if line = Key.mcastip.name then strcpy opt .mcastip value
      else if line = Key.mcastport.name then strcpy opt .mcastport value
      else if line = Key.tcpport.name then strcpy opt .tcpport value
      else if line = Key.magicnum.name then assign opt .magicnum (atoi value)
      else if line = Key.timeout.name then assign opt .timeout (atoi value)
      else if line = Key.dbglvl.name then assign opt .dbglvl (atoi value)
      else opt)

/-- One pass through the loop: the string in the buffer after `fscanf`, and `OPT` around the
body. -/
structure Pass where
  line : Text
  before : Region
  after : Region

/-- The end of a call: the passes it made and `OPT` after it. -/
structure Reading where
  passes : List Pass
  opt : Region

/-- The word that `%s` takes from the input. -/
def scanned (input : Text) : Text := (input.dropWhile isSpace).takeWhile fun c => !isSpace c

/-- The input behind the word and the white space that `\n` skips after it. -/
def afterScan (input : Text) : Text :=
  ((input.dropWhile isSpace).dropWhile fun c => !isSpace c).dropWhile isSpace

/-- The loop, from a position in the file that is not known to be its end. -/
def readLoop : ℕ → Text → Text → Region → Option Reading
  | 0, _, _, _ => none
  | fuel + 1, input, line, opt =>
    let word := scanned input
    if optBufLen ≤ word.length then none
    else
      -- without a word `fscanf` fails and the buffer keeps what it holds
      let line := if word = [] then cString line else cString word
      let (line', opt') := processLine line opt
      let pass : Pass := ⟨line, opt, opt'⟩
      if afterScan input = [] then some ⟨[pass], opt'⟩
      else (readLoop fuel (afterScan input) line' opt').map fun r => ⟨pass :: r.passes, r.opt⟩

/-- `ReadOptions`, with the contents of the file if it can be opened and those of `line` at
entry. -/
def readOptions (file : Option Text) (line : Text) (opt : Region) : Option Reading :=
  if leNat (opt.loadAt setOffset 4) ≠ 0 then some ⟨[], opt⟩
  else
    let opt := opt.storeAt setOffset (leBytes 4 1)
    match file with
    | none => some ⟨[], opt⟩
    | some input => readLoop (input.length + 1) input line opt

end VirtualFirmware.Opt
