import Z80Cost.Instruction.Platform
import Z80Cost.Source.Dialect

/-!
The options of the command line and the flags that set them.
-/

namespace Z80Cost.Command

inductive Format where
  | table
  | summary
  | bytes
  deriving DecidableEq

namespace Format

def all : List Format := [table, summary, bytes]

def name : Format → Text
  | table => "table"
  | summary => "summary"
  | bytes => "bytes"

/-- The format that a name or an unambiguous beginning of one chooses, or why there is none. -/
def find (name : Text) : Except Text Format :=
  let key := name.trim.lower
  (Name.resolve Format.name all key).mapError fun fault =>
    "format " ++ key.quoted ++ ": " ++ fault.message

end Format

structure Options where
  platform : Platform := .z80
  dialect : Source.Dialect := .generic
  /-- Whether storage blocks are metered as instructions. -/
  expandStorage : Bool := false
  maxLines : Int64 := 0
  maxCode : Int64 := 0
  /-- The most bytes listed in a row; one that is not positive sets no limit. -/
  maxBytes : Int64 := 0
  verbose : Bool := false
  /-- The file that results are saved to; empty for none. -/
  json : Text := []
  format : Format := .table
  /-- Whether the winning record is printed in full. -/
  dump : Bool := false
  help : Bool := false

inductive Flag where
  | platform
  | dialect
  | expandStorage
  | maxLines
  | maxCode
  | maxBytes
  | verbose
  | json
  | copy
  | workers
  | format
  | dump
  | help
  deriving DecidableEq

namespace Flag

def name : Flag → Text
  | platform => "platform"
  | dialect => "syntax"
  | expandStorage => "expand-ds"
  | maxLines => "max-lines"
  | maxCode => "max-loc"
  | maxBytes => "max-bytes"
  | verbose => "verbose"
  | json => "json"
  | copy => "copy"
  | workers => "workers"
  | format => "format"
  | dump => "dump"
  | help => "help"

def letter? : Flag → Option UInt8
  | platform => some 'p'
  | dialect => some 's'
  | verbose => some 'v'
  | format => some 'f'
  | help => some 'h'
  | _ => none

def isSwitch : Flag → Bool
  | expandStorage | verbose | copy | dump | help => true
  | _ => false

def label (flag : Flag) : Text :=
  match flag.letter? with
  | some letter => "-" ++ [letter] ++ ", --" ++ flag.name
  | none => "--" ++ flag.name

def readNumber (value : Text) : Except Text Int64 :=
  (Integer.readMarked value).mapError fun fault =>
    "strconv.ParseInt: parsing " ++ value.quoted ++ ": " ++ fault.message

def trueWords : List Text := ["1", "t", "T", "TRUE", "true", "True"]

def falseWords : List Text := ["0", "f", "F", "FALSE", "false", "False"]

def readSwitch (value : Text) : Except Text Bool :=
  if trueWords.contains value then .ok true
  else if falseWords.contains value then .ok false
  else .error ("strconv.ParseBool: parsing " ++ value.quoted ++ ": invalid syntax")

/-- The options with a flag set to a value, or why the value is refused. The number of workers and
the clipboard change nothing that is computed. -/
def set (options : Options) (flag : Flag) (value : Text) : Except Text Options :=
  match flag with
  | platform =>
      ((Platform.find value).mapError Platform.Unknown.message).map ({ options with platform := · })
  | dialect =>
      ((Source.Dialect.find value).mapError Source.Dialect.Unknown.message).map
        ({ options with dialect := · })
  | expandStorage => (readSwitch value).map ({ options with expandStorage := · })
  | maxLines => (readNumber value).map ({ options with maxLines := · })
  | maxCode => (readNumber value).map ({ options with maxCode := · })
  | maxBytes => (readNumber value).map ({ options with maxBytes := · })
  | verbose => (readSwitch value).map ({ options with verbose := · })
  | json => .ok { options with json := value }
  | copy => (readSwitch value).map fun _ => options
  | workers => (readNumber value).map fun _ => options
  | format => (Format.find value).map ({ options with format := · })
  | dump => (readSwitch value).map ({ options with dump := · })
  | help => (readSwitch value).map ({ options with help := · })

end Flag

end Z80Cost.Command
