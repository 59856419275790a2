import KeyArbiter.Json.Record

/-!
# Choices

One of several named variants. A variant without a payload is written as its name; any variant can
be read from an object with one member, its name and its payload.
-/

namespace KeyArbiter.Json

/-- What stands beside the name of a variant. -/
inductive Payload (α : Type)
  /-- Nothing: the name alone will do, and null stands for it in an object. -/
  | unit (a : α)
  /-- What `r` reads. `form` says what is missing when the name stands alone. -/
  | holds (form : String) (r : Reader α)

structure Variant (α : Type) where
  name : String
  payload : Payload α

variable {α : Type}

/-- The payload of the variant of this name, just read. -/
def payloadOf (variants : List (Variant α)) (name : String) (rest : List UInt8) :
    Except Fault (Payload α) :=
  match variants.find? (·.name == name) with
  | some v => .ok v.payload
  | none => .error (.here (.unknownVariant name (variants.map (·.name))) rest)

def Payload.reader : Payload α → Reader α
  | .unit a => Codec.null.read.map fun _ => a
  | .holds _ r => r

def endChoice (bytes : List UInt8) : Except Fault (List UInt8) :=
  match skipBlank bytes with
  | [] => .error (.here .eofObject [])
  | b :: rest => if b = closeObject then .ok rest else .error (.here .expectedValue (b :: rest))

def variantName (bytes : List UInt8) : Except Fault (String × List UInt8) :=
  match skipBlank bytes with
  | [] => .error (.peek .eofObject [])
  | b :: rest =>
    if b = quote then readText rest
    else .error (.peek (if b = closeObject then .expectedValue else .keyMustBeText) (b :: rest))

/-- Reads a choice: the object, or the bare name. -/
def readChoice (variants : List (Variant α)) (b : UInt8) (rest : List UInt8) :
    Except Fault (α × List UInt8) :=
  if b = openObject then do
    let (name, rest) ← variantName rest
    let payload ← payloadOf variants name rest
    let rest ← skipColon rest
    let (a, rest) ← payload.reader.run rest
    return (a, ← endChoice rest)
  else if b = quote then do
    let (name, rest) ← readText rest
    match ← payloadOf variants name rest with
    | .unit a => .ok (a, rest)
    | .holds form _ => .error ⟨.invalidType .bareVariant form, .unsettled rest⟩
  else .error (.peek .expectedValue (b :: rest))

theorem endChoice_shorter {bytes rest : List UInt8} (h : endChoice bytes = .ok rest) :
    rest.length < bytes.length := by
  have len := skipBlank_length_le bytes
  unfold endChoice at h
  split at h
  · cases h
  · next heq =>
    rw [heq, List.length_cons] at len
    split at h
    · cases h; omega
    · cases h

theorem variantName_shorter {bytes rest : List UInt8} {name : String}
    (h : variantName bytes = .ok (name, rest)) : rest.length < bytes.length := by
  have len := skipBlank_length_le bytes
  unfold variantName at h
  split at h
  · cases h
  · next heq =>
    rw [heq, List.length_cons] at len
    split at h
    · have := readText_shorter h
      omega
    · cases h

theorem readChoice_length_le {variants : List (Variant α)} {b : UInt8} {a : α}
    {bytes rest : List UInt8} (h : readChoice variants b bytes = .ok (a, rest)) :
    rest.length ≤ bytes.length := by
  unfold readChoice at h
  split at h
  · obtain ⟨⟨_, _⟩, h₁, h⟩ := exists_of_bind_eq_ok h
    obtain ⟨payload, _, h⟩ := exists_of_bind_eq_ok h
    obtain ⟨_, h₂, h⟩ := exists_of_bind_eq_ok h
    obtain ⟨⟨_, _⟩, h₃, h⟩ := exists_of_bind_eq_ok h
    obtain ⟨_, h₄, h⟩ := exists_of_bind_eq_ok h
    cases h
    have := variantName_shorter h₁
    have := skipColon_shorter h₂
    have := payload.reader.run_shorter h₃
    have := endChoice_shorter h₄
    omega
  split at h
  · obtain ⟨⟨_, _⟩, h₁, h⟩ := exists_of_bind_eq_ok h
    obtain ⟨payload, _, h⟩ := exists_of_bind_eq_ok h
    have := readText_shorter h₁
    cases payload with
    | unit => cases h; omega
    | holds => cases h
  · cases h

def Codec.choice (variants : List (Variant α)) (write : α → Value) : Codec α where
  read := .ofStart (readChoice variants) readChoice_length_le
  write := write

end KeyArbiter.Json
