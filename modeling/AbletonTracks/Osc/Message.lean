import AbletonTracks.Osc.Types

/-!
# OSC messages

`pythonosc/osc_message.py` and `pythonosc/osc_message_builder.py`: an address,
the type tags of the arguments, and their values.  A list among the arguments
is flattened between brackets in the tags; the parser builds it up again on a
stack.

The builder leaves the types to itself, as every caller does, and hands its
datagram to the parser.
-/

namespace AbletonTracks

open Library

/-- The value of an argument. -/
inductive ArgValue
  | string (text : String)
  | blob (bytes : List UInt8)
  | bool (value : Bool)
  | int (value : Int)
  | float (value : Floating)
  | midi (port status data1 data2 : Int)
  /-- Seconds since 1900 and their fraction; it can only be received. -/
  | timetag (seconds fraction : Nat)
  | none
  | list (values : List ArgValue)

/-- A message that was parsed. -/
structure OscMessage where
  dgram : List UInt8
  address : String
  params : List ArgValue

/-! ## Parsing -/

/-- `param_stack`: the list that grows, and those around it, innermost
first. -/
structure ParamStack where
  top : List ArgValue := []
  outer : List (List ArgValue) := []

namespace ParamStack

/-- `param_stack[-1].append(...)`, for each value. -/
def extend (stack : ParamStack) (values : List ArgValue) : ParamStack :=
  { stack with top := stack.top ++ values }

/-- Read a value and append it. -/
def reading
    {β : Type}
    (stack : ParamStack)
    (get : OscTypes.Getter β)
    (value : β → ArgValue) : OscTypes.Getter ParamStack :=
  get.andThen fun val => Reader.done (stack.extend [value val])

end ParamStack

namespace OscMessage

open OscTypes

/-- One round of the loop of `_parse_datagram`; a type that is not handled is
skipped. -/
def parseParam (param : Char) (stack : ParamStack) : Getter ParamStack :=
  match param with
  | 'i' => stack.reading getInt .int
  | 'h' => stack.reading getInt64 .int
  | 'f' => stack.reading getFloat .float
  | 'd' => stack.reading getDouble .float
  | 's' => stack.reading getString .string
  | 'b' => stack.reading getBlob .blob
  | 'r' => stack.reading getRgba fun val => .int val
  | 'm' => stack.reading getMidi fun val =>
      .midi val.1 val.2.1 val.2.2.1 val.2.2.2
  | 't' => stack.reading getTimetag fun val => .timetag val.1 val.2
  | 'T' => Reader.done (stack.extend [.bool true])
  | 'F' => Reader.done (stack.extend [.bool false])
  | 'N' => Reader.done (stack.extend [.none])
  | '[' => Reader.done ⟨[], stack.top :: stack.outer⟩
  | ']' =>
      match stack.outer with
      | [] => fun _ _ => .error .messageParse
      | around :: outer =>
          Reader.done ⟨around ++ [.list stack.top], outer⟩
  | _ => Reader.done stack

/-- The loop of `_parse_datagram`. -/
def parseParams : List Char → ParamStack → Getter ParamStack
  | [], stack => Reader.done stack
  | param :: tags, stack =>
      (parseParam param stack).andThen (parseParams tags)

/-- The types of a type tag string: a comma in front is dropped. -/
def tagsOf (typeTag : String) : List Char :=
  match typeTag.toList with
  | ',' :: tags => tags
  | tags => tags

/-- `_parse_datagram`, before its errors are caught. -/
def parseFields : Getter (String × List ArgValue) := fun dgram start =>
  match getString dgram start with
  | .error failure => .error failure
  | .ok (address, index) =>
      if sliceFrom dgram index = [] then .ok ((address, []), index)
      else
        match getString dgram index with
        | .error failure => .error failure
        | .ok (typeTag, index) =>
            match parseParams (tagsOf typeTag) {} dgram index with
            | .error failure => .error failure
            | .ok (stack, index) =>
                if stack.outer = [] then .ok ((address, stack.top), index)
                else .error .messageParse

/-- An error of `osc_types` becomes one of the message. -/
def caught : OscError → OscError
  | .typesParse => .messageParse
  | failure => failure

/-- `OscMessage(dgram)`. -/
def parse (dgram : List UInt8) : Except OscError OscMessage :=
  match parseFields dgram 0 with
  | .error failure => .error (caught failure)
  | .ok ((address, params), _) => .ok ⟨dgram, address, params⟩

/-- `dgram_is_message`. -/
def dgramIsMessage (dgram : List UInt8) : Bool :=
  (utf8 "/").isPrefixOf dgram

end OscMessage

/-! ## Building -/

namespace OscMessageBuilder

open OscTypes

/-- `_get_arg_type`, of a value that is no list. -/
def getArgType : ArgValue → Except OscError Char
  | .string _ => .ok 's'
  | .blob _ => .ok 'b'
  | .bool true => .ok 'T'
  | .bool false => .ok 'F'
  | .int value => .ok (if 2 ^ 32 ≤ value.natAbs then 'h' else 'i')
  | .float _ => .ok 'f'
  | .midi .. => .ok 'm'
  | .none => .ok 'N'
  -- A date with a fraction is a tuple of two.
  | .timetag .. => .error .value
  | .list _ => .error .value

mutual

/-- `add_arg`: what it appends to `_args`. -/
def addArg : ArgValue → Except OscError (List (Char × ArgValue))
  | .list values =>
      (addArgs values).map fun args =>
        ('[', .none) :: (args ++ [(']', .none)])
  | value => (getArgType value).map fun argType => [(argType, value)]

/-- `add_arg` for each value. -/
def addArgs : List ArgValue → Except OscError (List (Char × ArgValue))
  | [] => .ok []
  | value :: rest =>
      match addArg value, addArgs rest with
      | .ok args, .ok others => .ok (args ++ others)
      | .error failure, _ => .error failure
      | _, .error failure => .error failure

end

/-- What was written, or a `BuildError`. -/
def orBuildError : Option (List UInt8) → Except OscError (List UInt8)
  | some dgram => .ok dgram
  | none => .error .build

theorem orBuildError_eq_ok
    {written : Option (List UInt8)} {dgram : List UInt8} :
    orBuildError written = .ok dgram ↔ written = some dgram := by
  cases written <;> simp [orBuildError]

/-- One round of the loop of `build`. -/
def writeArg : Char × ArgValue → Except OscError (List UInt8)
  | ('s', .string value) => .ok (writeString value)
  | ('i', .int value) => orBuildError (writeInt value)
  | ('h', .int value) => orBuildError (writeInt64 value)
  | ('f', .float value) =>
      match writeFloat value with
      | some dgram => .ok dgram
      | none => .error .overflow
  | ('b', .blob value) => orBuildError (writeBlob value)
  | ('m', .midi port status data1 data2) =>
      .ok (writeMidi port status data1 data2)
  | ('T', _) | ('F', _) | ('[', _) | (']', _) | ('N', _) => .ok []
  | _ => .error .build

/-- The loop of `build`. -/
def writeArgs : List (Char × ArgValue) → Except OscError (List UInt8) :=
  writeAll writeArg

/-- `build`. -/
def build
    (address : String)
    (args : List (Char × ArgValue)) : Except OscError OscMessage :=
  if address = "" then .error .build
  else if args = [] then
    OscMessage.parse (writeString address ++ writeString ",")
  else
    match writeArgs args with
    | .error failure => .error failure
    | .ok body =>
        OscMessage.parse (writeString address ++
          (writeString (String.ofList (',' :: args.map Prod.fst)) ++ body))

/-- `send_message` up to the socket: add every value, then build. -/
def message
    (address : String)
    (values : List ArgValue) : Except OscError OscMessage :=
  match addArgs values with
  | .error failure => .error failure
  | .ok args => build address args

end OscMessageBuilder
end AbletonTracks
