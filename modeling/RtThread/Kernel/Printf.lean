import RtThread.Library.BoundedWriter
import RtThread.Library.CString
import Mathlib.Data.BitVec

/-!
# Formatted output

`rt_vsnprintf` and `print_number` on a 32-bit machine, with the precision field. The `long long`
qualifiers and the `0x` prefix are options of the build. Each place that stores a character tests
the output pointer against `end`, stores if it is not behind it and moves the pointer in any case;
addresses wrap around. The C type `int` is unbounded here, since signed overflow has no meaning in
C. A call that takes an argument of another type than the next one has no result.
-/

namespace RtThread.Kernel.Printf

open Text BoundedWriter

/-- `RT_PRINTF_LONGLONG` and `RT_PRINTF_SPECIAL` -/
structure Config where
  longlong : Bool
  special : Bool
deriving DecidableEq

structure Flags where
  zeropad : Bool := false
  sign : Bool := false
  plus : Bool := false
  space : Bool := false
  left : Bool := false
  special : Bool := false
  large : Bool := false
deriving DecidableEq

/-- One variable argument. -/
inductive Arg where
  | int (value : BitVec 32)
  | longlong (value : BitVec 64)
  | str (s : Option CString)
  | ptr (value : BitVec 32)
deriving DecidableEq

/-- The output memory and the pointer `str`. -/
abbrev Out := Sink UInt8

def addresses : Nat := 2 ^ 32

/-- `if (str <= end) *str = c; ++ str;` -/
def Out.put (stop : Nat) (o : Out) (c : UInt8) : Out :=
  Sink.put addresses stop o c

def Out.puts (stop : Nat) (o : Out) (text : List UInt8) : Out :=
  Sink.puts addresses stop o text

/-- `while (count-- > 0) { if (str <= end) *str = c; ++ str; }` with the value that
`count` has afterwards. -/
def Out.pad (stop : Nat) (o : Out) (c : UInt8) (count : Int) : Out × Int :=
  (Out.puts stop o (List.replicate count.toNat c), min count 0 - 1)

def byte (c : Char) : UInt8 := c.toUInt8

def isdigit (c : UInt8) : Bool := byte '0' ≤ c && c ≤ byte '9'

/-!
## Numbers
-/

/-- `divide`: the next digit and what is left; every base but ten counts as
sixteen. -/
def divide (n base : Nat) : Nat × Nat :=
  if base = 10 then (n % 10, n / 10) else (n % 16, n / 16)

def smallDigits : List UInt8 :=
  ['0', '1', '2', '3', '4', '5', '6', '7', '8', '9', 'a', 'b', 'c', 'd', 'e', 'f'].map byte

def largeDigits : List UInt8 :=
  ['0', '1', '2', '3', '4', '5', '6', '7', '8', '9', 'A', 'B', 'C', 'D', 'E', 'F'].map byte

/-- `while (num != 0) tmp[i++] = digits[divide(&num, base)]`: there is no result when
the digits do not fit into the rest of `tmp`. -/
def digitLoop (digits : List UInt8) (base : Nat) : Nat -> Nat -> Option (List UInt8)
  | 0, num => if num = 0 then some [] else none
  | room + 1, num =>
    if num = 0 then some []
    else
      let (digit, rest) := divide num base
      (digitLoop digits base room rest).map (digits.getD digit 0 :: ·)

def tmpSize (cfg : Config) : Nat := if cfg.longlong then 32 else 16

/-- The contents of `tmp`, the last digit first. -/
def tmpDigits (cfg : Config) (type : Flags) (num : BitVec 32) (base : Nat) :
    Option (List UInt8) :=
  let digits := if type.large then largeDigits else smallDigits
  if num = 0 then some [byte '0'] else digitLoop digits base (tmpSize cfg) num.toNat

/-- The sign character, if there is one, and the number without its sign. -/
def getSign (type : Flags) (num : BitVec 32) : Option UInt8 × BitVec 32 :=
  if type.sign then
    if num.slt 0 then (some (byte '-'), -num)
    else if type.plus then (some (byte '+'), num)
    else if type.space then (some (byte ' '), num)
    else (none, num)
  else (none, num)

/-- The characters in front of an octal or hexadecimal number. -/
def specialPrefix (cfg : Config) (type : Flags) (base : Nat) : List UInt8 :=
  if cfg.special && type.special then
    if base = 8 then [byte '0']
    else if base = 16 then [byte '0', if type.large then byte 'X' else byte 'x']
    else []
  else []

def printNumber (cfg : Config) (stop : Nat) (buf : Out) (num : BitVec 32) (base : Nat)
    (s precision : Int) (type : Flags) : Option Out :=
  let zeropad := type.zeropad && !type.left
  let c := if zeropad then byte '0' else byte ' '
  let (sign, num) := getSign type num
  let size := s - (specialPrefix cfg type base).length
  match tmpDigits cfg type num base with
  | none => none
  | some tmp =>
    let i : Int := tmp.length
    let precision := if i > precision then i else precision
    let size := size - precision
    let (buf, size) :=
      if !(zeropad || type.left) then
        Out.pad stop buf (byte ' ')
          (if sign.isSome && 0 < size then size - 1 else size)
      else (buf, size)
    let (buf, size) :=
      match sign with
      | some sign =>
        -- the width is only charged for a sign that is stored
        (Out.put stop buf sign, if buf.cursor ≤ stop then size - 1 else size)
      | none => (buf, size)
    let buf := Out.puts stop buf (specialPrefix cfg type base)
    let (buf, size) :=
      if !type.left then Out.pad stop buf c size else (buf, size)
    let buf := (Out.pad stop buf (byte '0') (precision - i)).1
    let buf := Out.puts stop buf tmp.reverse
    some (Out.pad stop buf (byte ' ') size).1

/-!
## Directives
-/

/-- The flag characters behind a `%`. -/
def getFlags : List UInt8 -> Flags -> Flags × List UInt8
  | [], flags => (flags, [])
  | c :: fmt, flags =>
    if c = byte '-' then getFlags fmt { flags with left := true }
    else if c = byte '+' then getFlags fmt { flags with plus := true }
    else if c = byte ' ' then getFlags fmt { flags with space := true }
    else if c = byte '#' then getFlags fmt { flags with special := true }
    else if c = byte '0' then getFlags fmt { flags with zeropad := true }
    else (flags, c :: fmt)

def skipAtoi : List UInt8 -> Int -> Int × List UInt8
  | [], i => (i, [])
  | c :: fmt, i =>
    if isdigit c then skipAtoi fmt (i * 10 + c.toNat - (byte '0').toNat)
    else (i, c :: fmt)

/-- What stands between the `%` of a directive and its conversion character. -/
structure Spec where
  flags : Flags
  fieldWidth : Int := -1
  precision : Int := -1
  qualifier : UInt8 := 0
deriving DecidableEq

/-- The rest of the format and the arguments that are left. -/
abbrev Input := List UInt8 × List Arg

/-- `va_arg(args, int)` -/
def takeInt : List Arg -> Option (BitVec 32 × List Arg)
  | Arg.int value :: args => some (value, args)
  | _ => none

def getWidth (spec : Spec) : Input -> Option (Spec × Input)
  | (fmt, args) =>
    if isdigit (first fmt) then
      let (width, fmt) := skipAtoi fmt 0
      some ({ spec with fieldWidth := width }, fmt, args)
    else if first fmt = byte '*' then
      (takeInt args).map fun (value, args) =>
        if value.toInt < 0 then
          ({ spec with
              fieldWidth := -value.toInt
              flags := { spec.flags with left := true } }, fmt.tail, args)
        else ({ spec with fieldWidth := value.toInt }, fmt.tail, args)
    else some (spec, fmt, args)

def getPrecision (spec : Spec) : Input -> Option (Spec × Input)
  | (fmt, args) =>
    if first fmt = byte '.' then
      let fmt := fmt.tail
      if isdigit (first fmt) then
        let (precision, fmt) := skipAtoi fmt 0
        some ({ spec with precision := if precision < 0 then 0 else precision }, fmt, args)
      else if first fmt = byte '*' then
        (takeInt args).map fun (value, args) =>
          ({ spec with precision := if value.toInt < 0 then 0 else value.toInt },
            fmt.tail, args)
      else some ({ spec with precision := 0 }, fmt, args)
    else some (spec, fmt, args)

def getQualifier (cfg : Config) (spec : Spec) : Input -> Spec × Input
  | (fmt, args) =>
    let c := first fmt
    if c = byte 'h' || c = byte 'l' || (cfg.longlong && c = byte 'L') then
      if cfg.longlong && c = byte 'l' && first fmt.tail = byte 'l' then
        ({ spec with qualifier := byte 'L' }, fmt.tail.tail, args)
      else ({ spec with qualifier := c }, fmt.tail, args)
    else (spec, fmt, args)

/-- Everything up to the conversion character, from behind the `%` on. -/
def getSpec (cfg : Config) (fmt : List UInt8) (args : List Arg) :
    Option (Spec × Input) :=
  let (flags, fmt) := getFlags fmt {}
  match getWidth { flags := flags } (fmt, args) with
  | none => none
  | some (spec, input) =>
    (getPrecision spec input).map fun (spec, input) => getQualifier cfg spec input

/-- The number of a numeric conversion, as far as `print_number` takes it. -/
def getNumber (qualifier : UInt8) (flags : Flags) : List Arg ->
    Option (BitVec 32 × List Arg)
  | Arg.longlong value :: args =>
    if qualifier = byte 'L' then some (value.setWidth 32, args) else none
  | Arg.int value :: args =>
    if qualifier = byte 'L' then none
    else if qualifier = byte 'h' then
      let short := value.setWidth 16
      some (if flags.sign then short.signExtend 32 else short.setWidth 32, args)
    else some (value, args)
  | _ => none

/-- The branches of the switch over the conversion character. -/
inductive Conversion where
  | char
  | string
  | pointer
  | percent
  | number (base : Nat) (sign large : Bool)
  | other
deriving DecidableEq

def conversion (c : UInt8) : Conversion :=
  if c = byte 'c' then .char
  else if c = byte 's' then .string
  else if c = byte 'p' then .pointer
  else if c = byte '%' then .percent
  else if c = byte 'o' then .number 8 false false
  else if c = byte 'X' then .number 16 false true
  else if c = byte 'x' then .number 16 false false
  else if c = byte 'd' || c = byte 'i' then .number 10 true false
  else if c = byte 'u' then .number 10 false false
  else .other

def nullText : List UInt8 := ['(', 'N', 'U', 'L', 'L', ')'].map byte

/-- The switch, with the format at the conversion character. -/
def convert (cfg : Config) (stop : Nat) (str : Out) (spec : Spec) :
    Input -> Option (Out × Input)
  | (fmt, args) =>
    match conversion (first fmt) with
    | .char =>
      let (str, width) :=
        if !spec.flags.left then Out.pad stop str (byte ' ') (spec.fieldWidth - 1)
        else (str, spec.fieldWidth - 1)
      (takeInt args).map fun (value, args) =>
        let str := Out.put stop str (UInt8.ofNat (value.toNat % 256))
        ((Out.pad stop str (byte ' ') width).1, fmt.tail, args)
    | .string =>
      match args with
      | Arg.str s :: args =>
        let s := (s.map CString.bytes).getD nullText
        let len : Int := s.length
        let len := if 0 < spec.precision ∧ len > spec.precision
          then spec.precision else len
        let (str, width) :=
          if !spec.flags.left then
            Out.pad stop str (byte ' ') (spec.fieldWidth - len)
          else (str, spec.fieldWidth - len)
        let str := Out.puts stop str (s.take len.toNat)
        some ((Out.pad stop str (byte ' ') width).1, fmt.tail, args)
      | _ => none
    | .pointer =>
      match args with
      | Arg.ptr value :: args =>
        let (width, flags) :=
          if spec.fieldWidth = -1 then (8, { spec.flags with zeropad := true })
          else (spec.fieldWidth, spec.flags)
        (printNumber cfg stop str value 16 width spec.precision flags).map
          fun str => (str, fmt.tail, args)
      | _ => none
    | .percent => some (Out.put stop str (byte '%'), fmt.tail, args)
    | .number base sign large =>
      let flags := { spec.flags with sign := sign, large := large }
      match getNumber spec.qualifier flags args with
      | none => none
      | some (num, args) =>
        (printNumber cfg stop str num base spec.fieldWidth spec.precision flags).map
          fun str => (str, fmt.tail, args)
    | .other =>
      let str := Out.put stop str (byte '%')
      -- the end of the format is not skipped
      match fmt with
      | [] => some (str, [], args)
      | c :: fmt => some (Out.put stop str c, fmt, args)

/-- The loop over the format; every round takes at least one of its characters. -/
def formatLoop (cfg : Config) (stop : Nat) : Nat -> List UInt8 -> List Arg -> Out ->
    Option Out
  | _, [], _, str => some str
  | 0, _ :: _, _, _ => none
  | fuel + 1, c :: fmt, args, str =>
    if c ≠ byte '%' then formatLoop cfg stop fuel fmt args (Out.put stop str c)
    else
      match getSpec cfg fmt args with
      | none => none
      | some (spec, input) =>
        match convert cfg stop str spec input with
        | none => none
        | some (str, fmt, args) => formatLoop cfg stop fuel fmt args str

/-- The pointer `end`: `buf + size - 1`, or the last address if that wraps around
below `buf`. -/
def lastAddress (buf size : Nat) : Nat :=
  let stop := (buf + size + (addresses - 1)) % addresses
  if stop < buf then addresses - 1 else stop

/-- The memory, the addresses stored to and the returned value. -/
structure Result where
  memory : Nat -> UInt8
  written : List Nat
  value : Int

def finish (buf stop : Nat) (str : Out) : Result :=
  let target := if str.cursor ≤ stop then str.cursor else stop
  { memory := Function.update str.memory target 0
    written := str.written ++ [target]
    value := ((str.cursor : Int) - buf).bmod addresses }

def rtVsnprintf (cfg : Config) (memory : Nat -> UInt8) (buf size : Nat) (fmt : CString)
    (args : List Arg) : Option Result :=
  let stop := lastAddress buf size
  (formatLoop cfg stop fmt.bytes.length fmt.bytes args
    { memory := memory, written := [], cursor := buf }).map (finish buf stop)

/-- `rt_vsprintf`: the size is the greatest one. -/
def rtVsprintf (cfg : Config) (memory : Nat -> UInt8) (buf : Nat) (format : CString)
    (args : List Arg) : Option Result :=
  rtVsnprintf cfg memory buf (addresses - 1) format args

end RtThread.Kernel.Printf
