import LogQuery.Text.Basic
/-!
# Flags

The flags of the command line: a letter behind a dash, or a name behind two dashes, and perhaps a
value.
-/
namespace LogQuery.CommandLine

/-- A flag. -/
inductive Flag where
  | help
  | config
  | env
  | output
  | index
  | debug
  | stdin
  | timezone
  | timeformat
  | filter
  | curl
  | raw
  | limit
  | recursive
  | time
  | orderby
  deriving DecidableEq

namespace Flag

def name : Flag → String
  | help => "help"
  | config => "config"
  | env => "env"
  | output => "output"
  | index => "index"
  | debug => "debug"
  | stdin => "stdin"
  | timezone => "timezone"
  | timeformat => "timeformat"
  | filter => "filter"
  | curl => "curl"
  | raw => "raw"
  | limit => "limit"
  | recursive => "recursive"
  | time => "time"
  | orderby => "orderby"

def letter? : Flag → Option Char
  | help => some 'h'
  | config => some 'c'
  | env => some 'e'
  | output => some 'o'
  | index => some 'i'
  | debug => some 'd'
  | filter => some 'f'
  | raw => some 'r'
  | limit => some 'l'
  | recursive => some 'R'
  | time => some 't'
  | orderby => some 'O'
  | stdin | timezone | timeformat | curl => none

def takesValue : Flag → Bool
  | help | debug | stdin | curl | raw => false
  | _ => true

def general : List Flag := [help]

def ofQuery : List Flag :=
  [help, config, env, output, index, debug, stdin, timezone, timeformat, filter, curl, raw, limit,
    recursive, time, orderby]

def ofLetter? (flags : List Flag) (p : CodePoint) : Option Flag :=
  flags.find? fun f => f.letter?.map CodePoint.scalar = some p

def ofName? (flags : List Flag) (t : Text) : Option Flag := flags.find? fun f => t.isString f.name

def withPrefix (flags : List Flag) (t : Text) : List Flag :=
  flags.filter fun f => (Text.dropPrefix? t f.name).isSome

end Flag
end LogQuery.CommandLine
