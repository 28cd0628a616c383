import AppFleet.Bus.Envelope
import AppFleet.Json.Fields
import AppFleet.Json.Reader
import AppFleet.Json.Writer
import AppFleet.Text.Blank
import AppFleet.Text.Lines

/-!
Frames: what a bus server and its peers say to each other, one JSON object a line. A line that is no
frame is reported and reading goes on; a line that is not UTF-8 ends the stream; blank lines count
for nothing.
-/

namespace AppFleet

inductive Frame where
  | subscribe (subject : String)
  | unsubscribe (subject : String)
  /-- From a peer: send this on the server's bus. -/
  | publish (envelope : Envelope)
  /-- From the server: this was sent on a subject of yours. -/
  | message (envelope : Envelope)
deriving DecidableEq

namespace Frame

def subscribe? : Frame → Option String
  | subscribe s => some s
  | _ => none

def unsubscribe? : Frame → Option String
  | unsubscribe s => some s
  | _ => none

def publish? : Frame → Option Envelope
  | publish e => some e
  | _ => none

def message? : Frame → Option Envelope
  | message e => some e
  | _ => none

def subjectField : Fields String String := .required "subject" .string id

def envelopeFields : Fields Envelope Envelope :=
  Envelope.mk
    <$> .required "subject" .string (·.subject)
    <*> .required "payload" .json (·.payload)
    <*> .omitNone "reply_to" .string (·.replyTo)

def variants : List (Variant Frame) := [
  .of "subscribe" "struct variant Frame::Subscribe" subjectField subscribe subscribe?,
  .of "unsubscribe" "struct variant Frame::Unsubscribe" subjectField unsubscribe unsubscribe?,
  .of "publish" "struct variant Frame::Publish" envelopeFields publish publish?,
  .of "message" "struct variant Frame::Message" envelopeFields message message?]

def codec : Codec Frame := Variant.codec "Frame" "op" variants

/-- The line of a frame: its entries in order of description, and a line feed. -/
def line (f : Frame) : List Char := (Json.object (Variant.entries "op" variants f)).write ++ ['\n']

def bytes (f : Frame) : List UInt8 := (String.ofList f.line).toUTF8.toList

/-- The keys that a frame of this kind may hold only once. -/
def keys : Frame → List String
  | subscribe _ | unsubscribe _ => ["op", "subject"]
  | publish _ | message _ => ["op", "subject", "payload", "reply_to"]

/-- Whether none of these keys is there twice. -/
def Unrepeated (once : List String) (entries : List (String × Json)) : Prop :=
  ∀ key ∈ once, (entries.filter (·.1 = key)).length ≤ 1

instance (once : List String) (entries : List (String × Json)) :
    Decidable (Unrepeated once entries) := by unfold Unrepeated; infer_instance

/-- The frame in the text of a line. -/
def ofText? (text : String) : Option Frame := do
  let value ← Json.parseEntries? text.toList
  let frame ← (codec.read value.canonical).toOption
  match value with
  | .object entries => if Unrepeated frame.keys entries then some frame else none
  | _ => some frame

/-- What comes of one line. -/
inductive Reading where
  | frame (frame : Frame)
  | malformed
  | notText
deriving DecidableEq

/-- Reads lines up to the first that is not text. -/
def readLines : List (List UInt8) → List Reading
  | [] => []
  | line :: rest =>
    match Text.ofUtf8? line with
    | none => [.notText]
    | some text =>
      if Text.isBlank text then readLines rest
      else ((ofText? text).elim .malformed .frame) :: readLines rest

def readAll (stream : List UInt8) : List Reading := readLines (Text.lines stream)

end Frame

end AppFleet
