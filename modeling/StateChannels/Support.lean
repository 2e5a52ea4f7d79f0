import StateChannels.App

/-!
# `StateChannels.Support`: when a state is supported

Participants hold a state to be supported when all of them signed it
(`validateUnanimous`). On the chain less is enough. A proof has
consecutive states, at most one per participant, and a signature of
each participant on one of them. That has to be a state no older than
the participant's own last move, for who signs a state accepts all
states before it (`SupportProof.validate`).

Main statements: `SignedState.verify_eq_ok_iff`, a signed state is
verified exactly if the signer is recovered from the signature, and
`SupportProof.checkAssignmentWords_eq`, the indices of a proof are too
small for their sums to overflow.
-/

set_option autoImplicit false

namespace StateChannels

/-- Why a state is not supported. -/
inductive SupportError where
  | emptyProof
  | tooManyStates (states participants : Nat)
  | assignmentLength (expected actual : Nat)
  | signatureCount (expected actual : Nat)
  | stateIndexOutOfRange (participant index : Nat)
  | unacceptableAssignment (participant : Nat)
  | signerMismatch (expected recovered : Address)
  | nonConsecutive (index : Nat)
  | channelIdMismatch (expected actual : Hash)
  | invalidTransition (turnNum : TurnNum)
  | turnNumMismatch (expected actual : TurnNum)
  | differentStates
  | notAParticipant (address : Address)
  | missingSignature (participant : Nat)
  | signature (error : SignatureError)
deriving DecidableEq

/-- The text of an error. -/
def SupportError.message : SupportError → String
  | emptyProof => "support proof contains no states"
  | tooManyStates states participants =>
    s!"{states} states cannot be signed by {participants} participants"
  | assignmentLength expected actual =>
    s!"whoSignedWhat has {actual} entries, expected {expected}"
  | signatureCount expected actual => s!"proof has {actual} signatures, expected {expected}"
  | stateIndexOutOfRange participant index =>
    s!"participant {participant} is assigned state {index}, which is not in the proof"
  | unacceptableAssignment participant =>
    s!"participant {participant} signed a state older than their own latest move"
  | signerMismatch expected recovered =>
    "signature recovers to " ++ recovered.text ++ ", expected " ++ expected.text
  | nonConsecutive index =>
    s!"state {index} of the proof is not consecutive to its predecessor"
  | channelIdMismatch expected actual =>
    "state belongs to channel " ++ actual.text ++ ", expected " ++ expected.text
  | invalidTransition turnNum => s!"invalid transition to turn {turnNum.toNat}"
  | turnNumMismatch expected actual =>
    s!"supported turn is {actual.toNat}, expected {expected.toNat}"
  | differentStates => "signatures are over different states"
  | notAParticipant a => a.text ++ " is not a participant of the channel"
  | missingSignature participant => s!"participant {participant} did not sign"
  | signature e => e.message

/-- Checks that the signature on a digest is that of `signer`. -/
def checkSigner (digest : Hash) (signature : Signature) (signer : Address) :
    Except SupportError Unit :=
  match recoverSigner digest signature with
  | .error e => .error (.signature e)
  | .ok recovered =>
    if recovered = signer then .ok () else .error (.signerMismatch signer recovered)

/-- A signature passes when it recovers the signer. -/
theorem checkSigner_eq_ok_iff {digest : Hash} {signature : Signature} {signer : Address} :
    checkSigner digest signature signer = .ok () ↔
      recoverSigner digest signature = .ok signer := by
  unfold checkSigner
  split
  · simp_all
  · split <;> simp_all

/-- Checks the signature of a signed state. The result is the digest
of the state. -/
def SignedState.verify (s : SignedState) : Except SupportError Hash := do
  checkSigner s.state.hash s.signature s.signer
  return s.state.hash

/-- A signed state is verified exactly if its signer is recovered
from the signature. -/
theorem SignedState.verify_eq_ok_iff {s : SignedState} {h : Hash} :
    s.verify = .ok h ↔
      recoverSigner s.state.hash s.signature = .ok s.signer ∧ h = s.state.hash := by
  unfold SignedState.verify
  rw [← checkSigner_eq_ok_iff]
  cases checkSigner s.state.hash s.signature s.signer <;>
    simp [bind, Except.bind, pure, Except.pure, eq_comm]

/-- What is known of a supported state. -/
@[ext] structure Supported where
  turnNum : TurnNum
  outcome : Outcome
  stateHash : Hash
  outcomeHash : Hash
deriving DecidableEq

/-- The support of a state. -/
def Supported.ofState (s : State) : Supported := ⟨s.turnNum, s.outcome, s.hash, s.outcome.hash⟩

/-- Consecutive states, a signature of each participant, and the
index of the state that each participant signed. -/
@[ext] structure SupportProof where
  states : List State
  signatures : List Signature
  assignment : List Nat
deriving DecidableEq

namespace SupportProof

/-- The last state, which the proof is about. -/
def latest? (p : SupportProof) : Option State := p.states.getLast?

/-- One state that all participants signed. -/
def unanimous (state : State) (signatures : List Signature) : SupportProof where
  states := [state]
  signatures
  assignment := signatures.map fun _ => 0

/-- The latest of the listed states that `participant` signed: its
index in `states` and the signature. Of several signatures on it the
first one counts. -/
def latestBy? (states : List State) (participant : Address) (signed : List SignedState) :
    Option (Nat × Signature) :=
  signed.foldl
    (fun best s =>
      if s.signer = participant then
        let index := states.idxOf s.state
        match best with
        | some (i, _) => if i < index then some (index, s.signature) else best
        | none => some (index, s.signature)
      else best)
    none

/-- The different states of a list, ordered by turn number. -/
def distinctStates (signed : List SignedState) : List State :=
  (signed.map SignedState.state).eraseDups.mergeSort fun a b => a.turnNum ≤ b.turnNum

/-- The proof that a list of signed states makes: its different
states by turn number, and of each participant the latest state that
they signed. Signatures are not looked at. -/
def ofSigned (c : Channel) (signed : List SignedState) : Except SupportError SupportProof :=
  match signed.find? fun s => s.signer ∉ c.participants with
  | some s => .error (.notAParticipant s.signer)
  | none => do
    let states := distinctStates signed
    let assigned ← c.participants.zipIdx.mapM fun (participant, i) =>
      match latestBy? states participant signed with
      | some entry => .ok entry
      | none => .error (.missingSignature i)
    return { states, signatures := assigned.map Prod.snd, assignment := assigned.map Prod.fst }

/-- How many turns before `largest` participant `i` of `size` moved
last: as many as the mover of `largest` is behind `i`. -/
def turnsSinceMove (largest : TurnNum) (size i : Nat) : Nat :=
  (largest.toNat % size + size - i) % size

/-- Checks that participant `i` is assigned one of `states` states,
the last of them at turn `largest`, and none older than their own last
move. -/
def checkAssigned (largest : TurnNum) (size states index i : Nat) : Except SupportError Unit :=
  if states ≤ index then .error (.stateIndexOutOfRange i index)
  else if index + turnsSinceMove largest size i + 1 < states then
    .error (.unacceptableAssignment i)
  else .ok ()

/-- Checks that no participant is assigned a state older than their
own last move. -/
def checkAssignment (assignment : List Nat) (largest : TurnNum) (size states : Nat) :
    Except SupportError Unit :=
  if assignment.length ≠ size then .error (.assignmentLength size assignment.length)
  else assignment.zipIdx.forM fun (index, i) => checkAssigned largest size states index i

/-- The same check where indices are machine words. The sum that says
where the own last move would stand may not fit. -/
def checkAssignmentWords (assignment : List Nat) (largest : TurnNum) (size states : Nat) :
    Except (Failure SupportError) Unit :=
  if assignment.length ≠ size then
    .error (.refused (.assignmentLength size assignment.length))
  else
    assignment.zipIdx.forM fun (index, i) =>
      if index < states ∧ 2 ^ 64 ≤ index + turnsSinceMove largest size i + 1 then
        .error (.overflow .addition)
      else Failure.ofRule id (checkAssigned largest size states index i)

/-- The number of turns since a move is less than a round. -/
theorem turnsSinceMove_lt (largest : TurnNum) {size : Nat} (pos : 0 < size) (i : Nat) :
    turnsSinceMove largest size i < size := Nat.mod_lt _ pos

/-- With as few participants and states as a proof can have, every
sum fits, and the two checks are the same. -/
theorem checkAssignmentWords_eq {assignment : List Nat} {largest : TurnNum} {size states : Nat}
    (few : size + states ≤ 2 ^ 64) :
    checkAssignmentWords assignment largest size states =
      Failure.ofRule id (checkAssignment assignment largest size states) := by
  unfold checkAssignmentWords checkAssignment
  split
  · rfl
  · rename_i length
    rw [← Failure.forM_ofRule]
    apply forM_congr
    rintro ⟨index, i⟩ member
    apply if_neg
    rintro ⟨inside, large⟩
    have here : i < assignment.length := by
      have := List.snd_lt_of_mem_zipIdx member
      omega
    have pos : 0 < size := by omega
    have := turnsSinceMove_lt largest pos i
    omega

/-- Checks that each state follows the one before. With an
application, its rules are checked too. The first state stands at
`index`. -/
def checkChain (app? : Option App) (size : Nat) (index : Nat) :
    List State → Except (Failure SupportError) Unit
  | [] => .ok ()
  | [_] => .ok ()
  | prev :: next :: rest =>
    if !next.follows prev then .error (.refused (.nonConsecutive (index + 1)))
    else do
      match app? with
      | none => pure ()
      | some app =>
        if !(← Failure.ofCounter (app.validTransition prev next size)) then
          .error (.refused (.invalidTransition next.turnNum))
      checkChain app? size (index + 1) (next :: rest)

/-- Checks that each participant signed the assigned state. -/
def checkSignatures (c : Channel) (p : SupportProof) : Except SupportError Unit :=
  ((c.participants.zip (p.assignment.zip p.signatures)).zipIdx).forM
    fun ((participant, index, signature), i) =>
      match p.states[index]? with
      | some state => checkSigner state.hash signature participant
      | none => .error (.stateIndexOutOfRange i index)

/-- Checks a proof. With an application, every step between its
states has to be a valid transition. -/
def validate (c : Channel) (p : SupportProof) (app? : Option App) :
    Except (Failure SupportError) Supported :=
  match p.latest? with
  | none => .error (.refused .emptyProof)
  | some latest => do
    if c.size < p.states.length then
      .error (.refused (.tooManyStates p.states.length c.size))
    match p.states.find? fun s => s.channelId ≠ c.id with
    | some s => .error (.refused (.channelIdMismatch c.id s.channelId))
    | none => pure ()
    checkChain app? c.size 0 p.states
    Failure.ofRule id (checkAssignment p.assignment latest.turnNum c.size p.states.length)
    if p.signatures.length ≠ c.size then
      .error (.refused (.signatureCount c.size p.signatures.length))
    Failure.ofRule id (checkSignatures c p)
    return .ofState latest

/-- A proof is accepted exactly if every check passes. The result is
the support of its last state. -/
theorem validate_eq_ok_iff {c : Channel} {p : SupportProof} {app? : Option App}
    {supported : Supported} :
    p.validate c app? = .ok supported ↔
      ∃ latest, p.latest? = some latest ∧ p.states.length ≤ c.size ∧
        (∀ s ∈ p.states, s.channelId = c.id) ∧
        checkChain app? c.size 0 p.states = .ok () ∧
        checkAssignment p.assignment latest.turnNum c.size p.states.length = .ok () ∧
        p.signatures.length = c.size ∧
        checkSignatures c p = .ok () ∧ supported = .ofState latest := by
  unfold validate
  cases p.latest? with
  | none => simp
  | some latest =>
    have same : (p.states.find? fun s => s.channelId ≠ c.id) = none ↔
        ∀ s ∈ p.states, s.channelId = c.id := by simp
    simp only [error_if_eq_ok_iff, Option.some.injEq, exists_eq_left', ← same, Nat.not_lt]
    cases p.states.find? fun s => s.channelId ≠ c.id with
    | some s => simp [bind, Except.bind]
    | none =>
      simp only [check_bind_eq_ok_iff, error_if_eq_ok_iff, Failure.ofRule_eq_ok_iff, ne_eq,
        Decidable.not_not, true_and, pure, Except.pure, Except.ok.injEq,
        @eq_comm _ supported]

end SupportProof

/-- Checks that every participant signed one and the same state, at
turn `turnNum`. -/
def validateUnanimous (c : Channel) (signed : List SignedState) (turnNum : TurnNum) :
    Except SupportError Supported :=
  match signed with
  | [] => .error .emptyProof
  | first :: _ => do
    let state := first.state
    if signed.any fun s => s.state ≠ state then .error .differentStates
    if state.turnNum ≠ turnNum then .error (.turnNumMismatch turnNum state.turnNum)
    if state.channelId ≠ c.id then .error (.channelIdMismatch c.id state.channelId)
    signed.forM fun s => do
      checkSigner state.hash s.signature s.signer
      if s.signer ∉ c.participants then .error (.notAParticipant s.signer)
    match c.participants.findIdx? fun participant =>
        signed.all fun s => s.signer ≠ participant with
    | some i => .error (.missingSignature i)
    | none => return .ofState state

end StateChannels
