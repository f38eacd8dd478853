import LevinNet.Session.Network
import LevinNet.Text.Digits

/-
The arguments of the command line. A setting takes one value: behind an equals sign, at the end of a
short form, or as the next argument, unless that looks like a setting itself. Only seeds may be
given more than once, and at least one must be. Any other argument is a usage error.
-/
namespace LevinNet.CommandLine

inductive Setting where
  | seed
  | network
  | tasks
  | peerTimeout
  | deadline
  | proxy
  | logLevel
  deriving DecidableEq, Repr

namespace Setting

/-- The setting of a long name. -/
def ofLong? : String → Option Setting
  | "seed" => some .seed
  | "network" => some .network
  | "concurrent-tasks" => some .tasks
  | "peer-timeout" => some .peerTimeout
  | "deadline" => some .deadline
  | "proxy" => some .proxy
  | "log-level" => some .logLevel
  | _ => none

/-- The setting of a letter. -/
def ofShort? : Char → Option Setting
  | 's' => some .seed
  | 'n' => some .network
  | 'c' => some .tasks
  | 'd' => some .deadline
  | 'p' => some .proxy
  | 'l' => some .logLevel
  | _ => none

end Setting

/-- What was set; durations are in seconds. -/
structure Options where
  seeds : List String := []
  network : Option Network := none
  tasks : Option Nat := none
  peerTimeout : Option Nat := none
  deadline : Option Nat := none
  proxy : Option String := none
  logLevel : Option String := none
  deriving DecidableEq, Repr

/-- Why there is nothing to run. -/
inductive Stop where
  | usage
  /-- Help or the version was asked for. -/
  | information
  deriving DecidableEq, Repr

/-- A value for a setting that had none. -/
def once (present : Option α) (value : Option α) : Except Stop (Option α) :=
  match present, value with
  | none, some a => .ok (some a)
  | _, _ => .error .usage

/-- A whole number of 64 bits. -/
def wholeNumber (value : String) : Option Nat := Digits.whole? (0x10000000000000000) value

namespace Options

/-- Give a setting a value. -/
def set (o : Options) (s : Setting) (value : String) : Except Stop Options :=
  match s with
  | .seed => .ok { o with seeds := o.seeds ++ [value] }
  | .network => (once o.network (Network.parse value).toOption).map ({ o with network := · })
  | .tasks => (once o.tasks (wholeNumber value)).map ({ o with tasks := · })
  | .peerTimeout => (once o.peerTimeout (wholeNumber value)).map ({ o with peerTimeout := · })
  | .deadline => (once o.deadline (wholeNumber value)).map ({ o with deadline := · })
  | .proxy => (once o.proxy (some value)).map ({ o with proxy := · })
  | .logLevel => (once o.logLevel (some value)).map ({ o with logLevel := · })

/-- Take in an argument behind two dashes; tells which setting still waits for its value. -/
def long (o : Options) (cs : List Char) : Except Stop (Options × Option Setting) :=
  let name := String.ofList (cs.takeWhile (· ≠ '='))
  match Setting.ofLong? name, cs.dropWhile (· ≠ '=') with
  | some s, [] => .ok (o, some s)
  | some s, _ :: value => (o.set s (String.ofList value)).map (·, none)
  | none, [] => .error (if name = "help" ∨ name = "version" then .information else .usage)
  | none, _ => .error .usage

/-- Take in an argument behind one dash. -/
def short (o : Options) : List Char → Except Stop (Options × Option Setting)
  | [] => .error .usage
  | c :: cs =>
    match Setting.ofShort? c, cs with
    | some s, [] => .ok (o, some s)
    | some s, '=' :: value => (o.set s (String.ofList value)).map (·, none)
    | some s, value => (o.set s (String.ofList value)).map (·, none)
    | none, _ => .error (if c = 'h' ∨ c = 'V' then .information else .usage)

/-- Take in arguments, the first of which may be the value of a setting that waits for one. -/
def takeAll (o : Options) (waiting : Option Setting) : List String → Except Stop Options
  | [] => if waiting.isSome then .error .usage else .ok o
  | arg :: args =>
    match arg.toList, waiting with
    | '-' :: '-' :: [], none => if args.isEmpty then .ok o else .error .usage
    | '-' :: '-' :: cs, none => do
      let (o, waiting) ← o.long cs
      takeAll o waiting args
    | '-' :: c :: cs, none => do
      let (o, waiting) ← o.short (c :: cs)
      takeAll o waiting args
    | '-' :: _ :: _, some _ => .error .usage
    | _, some s => do
      let o ← o.set s arg
      takeAll o none args
    | _, none => .error .usage

/-- The options that arguments set. -/
def parse (args : List String) : Except Stop Options :=
  match takeAll {} none args with
  | .error stop => .error stop
  | .ok o => if o.seeds.isEmpty then .error .usage else .ok o

end Options

end LevinNet.CommandLine
