import CisWebui.Multipart.KmpSearcher

/-!
# The two stream parsers

`multipart_stream_parser` finds the delimiters of a multipart body and holds
back the bytes that may belong to one; `message_stream_parser` reads the part
between two delimiters, a header and a body.

Both take one byte at a time.  A parser that reports an error stays in the
state it was in.
-/

namespace CisWebui
namespace Multipart

open Cpp

/-!
## Delimiters
-/

/-- `multipart_stream_parser::event` -/
inductive StreamEvent where
  | none
  | messageBegin
  | messageEnd
deriving DecidableEq, Repr

/-- `multipart_stream_parser::state` -/
inductive StreamState where
  | start
  | preamble
  | firstMessage
  | maybeEndOrEncapsulation
  | maybeEnd
  | maybeEncapsulation
  | encapsulation
  | epilogue
deriving DecidableEq, Repr

/-- `multipart_stream_parser` -/
structure StreamParser where
  state : StreamState := StreamState.start
  kmp : KmpSearcher := {}
  preambleDelim : Str := []
  encapsulationDelim : Str := []
  lastMatched : Nat := 0
deriving DecidableEq, Repr

/-- What `handle_char` returns: how many of the bytes held back are let go, the
event, and whether it has assigned an error. -/
structure StreamStep where
  parser : StreamParser
  advancement : Nat := 0
  event : StreamEvent := StreamEvent.none
  failed : Bool := false
deriving DecidableEq, Repr

namespace StreamParser

def init (p : StreamParser) (boundary : Str) : StreamParser :=
  { p with
    preambleDelim := p.preambleDelim ++ str "--" ++ boundary ++ str "\r\n"
    encapsulationDelim :=
      p.encapsulationDelim ++ str "\r\n" ++ str "--" ++ boundary }

/-- `tr_delim`, which is asked for in the three searching states only. -/
def trDelim (p : StreamParser) : Str :=
  match p.state with
  | StreamState.preamble => p.preambleDelim
  | StreamState.firstMessage => p.encapsulationDelim
  | StreamState.encapsulation => p.encapsulationDelim
  | _ => []

def trInit (p : StreamParser) : StreamParser :=
  { p with lastMatched := 0, kmp := p.kmp.init p.trDelim }

/-- `tr_check`: the advancement, and whether the delimiter is complete. -/
def trCheck (p : StreamParser) (c : UInt8) : StreamParser × Nat × Bool :=
  let found := p.kmp.partialSearch c
  let matched := found.2
  let result := decide (matched = p.trDelim.length)
  let passed :=
    if p.lastMatched + 1 = matched then 0 else p.lastMatched + 1 - matched
  let advancement := passed + if result then p.trDelim.length else 0
  ({ p with kmp := found.1, lastMatched := matched }, advancement, result)

/-- The case `preamble`, which the case `start` falls through to. -/
def inPreamble (p : StreamParser) (c : UInt8) : StreamStep :=
  let (p, advancement, result) := p.trCheck c
  if result then
    { parser := { p with state := StreamState.firstMessage }.trInit
      advancement := advancement
      event := StreamEvent.messageBegin }
  else
    { parser := p, advancement := advancement }

/-- The cases `first_message` and `encapsulation`. -/
def inMessage (p : StreamParser) (c : UInt8) : StreamStep :=
  let (p, advancement, result) := p.trCheck c
  if result then
    { parser := { p with state := StreamState.maybeEndOrEncapsulation }
      advancement := advancement
      event := StreamEvent.messageEnd }
  else
    { parser := p, advancement := advancement }

/-- `handle_char` -/
def handleChar (p : StreamParser) (c : UInt8) : StreamStep :=
  match p.state with
  | StreamState.start =>
      ({ p with state := StreamState.preamble }.trInit).inPreamble c
  | StreamState.preamble => p.inPreamble c
  | StreamState.firstMessage => p.inMessage c
  | StreamState.encapsulation => p.inMessage c
  | StreamState.maybeEndOrEncapsulation =>
      if c = chr '-' then
        { parser := { p with state := StreamState.maybeEnd } }
      else if c = chr '\r' then
        { parser := { p with state := StreamState.maybeEncapsulation } }
      else
        { parser := p, failed := true }
  | StreamState.maybeEnd =>
      if c = chr '-' then
        { parser := { p with state := StreamState.epilogue }, advancement := 2 }
      else
        { parser := p, failed := true }
  | StreamState.maybeEncapsulation =>
      if c = chr '\n' then
        { parser := { p with state := StreamState.encapsulation }.trInit
          advancement := 2
          event := StreamEvent.messageBegin }
      else
        { parser := p, failed := true }
  | StreamState.epilogue => { parser := p, advancement := 1 }

end StreamParser

/-!
## Parts
-/

/-- `message_stream_parser::event` -/
inductive MessageEvent where
  | none
  | beginName
  | endName
  | beginFilename
  | endFilename
  | beginBody
  | endBody
deriving DecidableEq, Repr

/-- `message_stream_parser::state` -/
inductive MessageState where
  | start
  | contentDisposition
  | name
  | maybeFilename
  | filename
  | filenameBody
  | contentType
  | contentTypeBody
  | preBody
  | body
deriving DecidableEq, Repr

/-- `message_stream_parser`; `transition` is what is left of the literal that
`transition_it` walks over. -/
structure MessageParser where
  state : MessageState := MessageState.start
  transition : Str := []
deriving DecidableEq, Repr

/-- What `handle_message_char` and `handle_message_end` return, and whether
they have assigned an error. -/
structure MessageStep where
  parser : MessageParser
  event : MessageEvent := MessageEvent.none
  failed : Bool := false
deriving DecidableEq, Repr

namespace MessageParser

/-- The literal from `tr_begin` to `tr_end`, in the four states that have
one. -/
def literal : MessageState -> Str
  | MessageState.contentDisposition =>
      str "Content-Disposition: form-data; name=\""
  | MessageState.filename => str " filename=\""
  | MessageState.contentType => str "\r\nContent-Type: "
  | MessageState.preBody => str "\r\n\r\n"
  | _ => []

/-- The parser in a new state, with `tr_reset`. -/
def goReset (p : MessageParser) (state : MessageState) : MessageParser :=
  { p with state := state, transition := literal state }

def trNext (p : MessageParser) : MessageParser :=
  { p with transition := p.transition.tail }

/-- The common body of the states that read a literal: on its last byte the
parser goes on to `next` with the event. -/
def expect (p : MessageParser) (c : UInt8) (next : MessageState)
    (event : MessageEvent) : MessageStep :=
  if p.transition.head? = some c then
    if p.trNext.transition = [] then
      { parser := { p.trNext with state := next }, event := event }
    else
      { parser := p.trNext }
  else
    { parser := p, failed := true }

/-- `handle_message_char` -/
def handleMessageChar (p : MessageParser) (c : UInt8) : MessageStep :=
  match p.state with
  | MessageState.start =>
      (p.goReset MessageState.contentDisposition).expect c MessageState.name
        MessageEvent.beginName
  | MessageState.contentDisposition =>
      p.expect c MessageState.name MessageEvent.beginName
  | MessageState.name =>
      if c = chr '"' then
        { parser := { p with state := MessageState.maybeFilename }
          event := MessageEvent.endName }
      else
        { parser := p }
  | MessageState.maybeFilename =>
      if c = chr ';' then
        { parser := p.goReset MessageState.filename }
      else if c = chr '\r' then
        { parser := (p.goReset MessageState.preBody).trNext }
      else
        { parser := p, failed := true }
  | MessageState.filename =>
      p.expect c MessageState.filenameBody MessageEvent.beginFilename
  | MessageState.filenameBody =>
      if c = chr '"' then
        { parser := p.goReset MessageState.contentType
          event := MessageEvent.endFilename }
      else
        { parser := p }
  | MessageState.contentType =>
      p.expect c MessageState.contentTypeBody MessageEvent.none
  | MessageState.contentTypeBody =>
      if c = chr '\r' then
        { parser := (p.goReset MessageState.preBody).trNext }
      else
        { parser := p }
  | MessageState.preBody => p.expect c MessageState.body MessageEvent.beginBody
  | MessageState.body => { parser := p }

/-- `handle_message_end` -/
def handleMessageEnd (p : MessageParser) : MessageStep :=
  if p.state = MessageState.body then
    { parser := { p with state := MessageState.start }
      event := MessageEvent.endBody }
  else
    { parser := p, failed := true }

end MessageParser

end Multipart
end CisWebui
