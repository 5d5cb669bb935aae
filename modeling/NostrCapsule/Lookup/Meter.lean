import NostrCapsule.Lookup.Basic

/-!
Contract: what a computation comes to over a store.

Owns:
- `Answers`, a store that always answers a question alike, and `Lookup.answer`;
- `Source`, a store whose state may change with every question, and `Lookup.run`;
- `Meter` and `Answers.metered`, a store that counts its questions and may stop to answer.

Does not own: any particular store.
-/

namespace NostrCapsule

/-- A store that answers a question always alike. -/
structure Answers where
  query : Filter → QueryAnswer
  readRelays : String → List String

/-- A store whose answers may depend on a state, which each question may change. -/
structure Source (σ : Type) where
  query : Filter → σ → QueryAnswer × σ
  readRelays : String → σ → List String × σ

namespace Lookup

variable {α σ : Type}

/-- The value of a computation over a store that answers always alike. -/
def answer (answers : Answers) : Lookup α → α
  | .done value => value
  | .query filter next => (next (answers.query filter)).answer answers
  | .readRelays pubkey next => (next (answers.readRelays pubkey)).answer answers

def run (source : Source σ) : Lookup α → σ → α × σ
  | .done value, state => (value, state)
  | .query filter next, state =>
      let (answer, state) := source.query filter state
      (next answer).run source state
  | .readRelays pubkey next, state =>
      let (relays, state) := source.readRelays pubkey state
      (next relays).run source state

end Lookup

/-- How many filters were asked for, and how many more will be answered. -/
structure Meter where
  asked : Nat := 0
  remaining : Option Nat := none
deriving DecidableEq, Repr

/-- A store that answers as another does until `remaining` filters were answered; from then on it
refuses with `failure` and knows no relays. -/
def Answers.metered (answers : Answers) (failure : StoreError) : Source Meter where
  query filter meter :=
    match meter.remaining with
    | none => (answers.query filter, { meter with asked := meter.asked + 1 })
    | some 0 => (.error failure, { meter with asked := meter.asked + 1 })
    | some (count + 1) =>
        (answers.query filter, { asked := meter.asked + 1, remaining := some count })
  readRelays pubkey meter :=
    if meter.remaining = some 0 then ([], meter) else (answers.readRelays pubkey, meter)

end NostrCapsule
