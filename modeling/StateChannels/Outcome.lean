import StateChannels.Abi.Token
import StateChannels.Distinct

/-!
# `StateChannels.Outcome`: who gets which part of the funds

An outcome has an entry for each asset holder. The entry is an
allocation, which pays destinations in order, or a guarantee, which
reserves the funds for another channel. The digest of an outcome is
taken of its ABI form:

```
struct OutcomeItem { address assetHolder; bytes assetOutcomeBytes; }
struct AssetOutcome { uint8 assetOutcomeType; bytes allocationOrGuaranteeBytes; }
struct AllocationItem { bytes32 destination; uint256 amount; }
struct Guarantee { bytes32 targetChannelId; bytes32[] destinations; }
```

Main statement: `Outcome.validate_eq_ok_iff`, an outcome is valid
exactly if its asset holders are distinct and no allocation names a
destination twice.
-/

set_option autoImplicit false

namespace StateChannels

/-- Why an outcome is not well formed. -/
inductive OutcomeError where
  | duplicateAssetHolder (holder : Address)
  | duplicateDestination (destination : Destination)
deriving DecidableEq

/-- The text of an error. -/
def OutcomeError.message : OutcomeError → String
  | duplicateAssetHolder a => "asset holder " ++ a.text ++ " appears more than once"
  | duplicateDestination d =>
    "destination " ++ d.text ++ " appears more than once in an allocation"

/-- An amount for a destination. -/
@[ext] structure AllocationItem where
  destination : Destination
  amount : Uint256
deriving DecidableEq

/-- Amounts in the order in which they are paid, while funds last. -/
@[ext] structure Allocation where
  items : List AllocationItem
deriving DecidableEq

/-- Funds reserved for the channel `target`, to be paid to the
destinations in order of priority. -/
@[ext] structure Guarantee where
  target : Hash
  destinations : List Destination
deriving DecidableEq

/-- What happens to the funds in one asset. -/
inductive AssetContent where
  | allocation (a : Allocation)
  | guarantee (g : Guarantee)
deriving DecidableEq

/-- What happens to the funds that one asset holder keeps. -/
@[ext] structure AssetOutcome where
  assetHolder : Address
  content : AssetContent
deriving DecidableEq

/-- What happens to all funds of a channel. -/
@[ext] structure Outcome where
  assets : List AssetOutcome
deriving DecidableEq

/-- The outcome without assets. -/
instance : Inhabited Outcome := ⟨⟨[]⟩⟩

namespace Allocation

/-- The amount of the first item for a destination. -/
def amountOf? (a : Allocation) (d : Destination) : Option Uint256 :=
  (a.items.find? fun item => item.destination = d).map AllocationItem.amount

/-- Refuses an allocation that names a destination twice. -/
def checkDistinct (a : Allocation) : Except OutcomeError Unit :=
  match firstRepeat? (a.items.map AllocationItem.destination) with
  | some d => .error (.duplicateDestination d)
  | none => .ok ()

/-- An allocation passes when its destinations are distinct. -/
theorem checkDistinct_eq_ok_iff {a : Allocation} :
    a.checkDistinct = .ok () ↔ (a.items.map AllocationItem.destination).Nodup := by
  unfold checkDistinct
  rw [← firstRepeat?_eq_none_iff]
  split <;> simp_all

/-- The ABI form: a list of pairs. -/
def token (a : Allocation) : Abi.Token :=
  .array (a.items.map fun item =>
    .tuple [.ofDestination item.destination, .ofUint256 item.amount])

end Allocation

/-- The ABI form: the target and the list of destinations. -/
def Guarantee.token (g : Guarantee) : Abi.Token :=
  .tuple [.ofHash g.target, .array (g.destinations.map .ofDestination)]

namespace AssetContent

/-- The allocation, if it is one. -/
def allocation? : AssetContent → Option Allocation
  | allocation a => some a
  | guarantee _ => none

/-- The guarantee, if it is one. -/
def guarantee? : AssetContent → Option Guarantee
  | allocation _ => none
  | guarantee g => some g

/-- The label that the ABI form carries. -/
def label : AssetContent → Nat
  | allocation _ => 0
  | guarantee _ => 1

/-- The ABI form of the content proper. -/
def token : AssetContent → Abi.Token
  | allocation a => a.token
  | guarantee g => g.token

/-- The bytes of the content under its label. -/
def encode (c : AssetContent) : Bytes :=
  (Abi.Token.tuple [.ofNat c.label, .bytes c.token.toBytes]).toBytes

end AssetContent

/-- The bytes of the entry of an asset holder. The holder itself
stands beside them in the outcome. -/
def AssetOutcome.encode (o : AssetOutcome) : Bytes := o.content.encode

namespace Outcome

/-- The outcome of one asset holder, with an allocation. -/
def single (assetHolder : Address) (a : Allocation) : Outcome :=
  ⟨[⟨assetHolder, .allocation a⟩]⟩

/-- The first entry of an asset holder. -/
def find? (o : Outcome) (assetHolder : Address) : Option AssetOutcome :=
  o.assets.find? fun asset => asset.assetHolder = assetHolder

/-- The allocation of an asset holder, if its first entry is one. -/
def allocation? (o : Outcome) (assetHolder : Address) : Option Allocation :=
  (o.find? assetHolder).bind fun asset => asset.content.allocation?

/-- The entries with the first one of the same asset holder replaced,
or with a new one at the end. -/
def setEntry (entry : AssetOutcome) : List AssetOutcome → List AssetOutcome
  | [] => [entry]
  | o :: os => if o.assetHolder = entry.assetHolder then entry :: os else o :: setEntry entry os

/-- The outcome with an entry replaced or added. -/
def set (o : Outcome) (entry : AssetOutcome) : Outcome := ⟨setEntry entry o.assets⟩

/-- Refuses the first entry whose asset holder stood in an entry
before or whose allocation names a destination twice. -/
def validateFrom (seen : List Address) : List AssetOutcome → Except OutcomeError Unit
  | [] => .ok ()
  | o :: os =>
    if o.assetHolder ∈ seen then .error (.duplicateAssetHolder o.assetHolder)
    else
      match o.content.allocation?.map Allocation.checkDistinct with
      | some (.error e) => .error e
      | _ => validateFrom (o.assetHolder :: seen) os

/-- Refuses an outcome that is not well formed. -/
def validate (o : Outcome) : Except OutcomeError Unit := validateFrom [] o.assets

/-- The bytes of an outcome: a list of asset holders and entries. -/
def encode (o : Outcome) : Bytes :=
  (Abi.Token.array (o.assets.map fun asset =>
    .tuple [.ofAddress asset.assetHolder, .bytes asset.encode])).toBytes

/-- The digest of an outcome. -/
def hash (o : Outcome) : Hash := keccak256 o.encode

/-! ### Valid outcomes -/

/-- No asset holder has two entries, and no allocation names a
destination twice. -/
def Valid (o : Outcome) : Prop :=
  (o.assets.map AssetOutcome.assetHolder).Nodup ∧
    ∀ asset ∈ o.assets, ∀ a, asset.content = .allocation a →
      (a.items.map AllocationItem.destination).Nodup

/-- Assets pass when their holders are new and distinct, and so are the
destinations of each. -/
theorem validateFrom_eq_ok_iff {seen : List Address} {assets : List AssetOutcome} :
    validateFrom seen assets = .ok () ↔
      ((assets.map AssetOutcome.assetHolder).Nodup ∧
        ∀ asset ∈ assets, asset.assetHolder ∉ seen) ∧
      ∀ asset ∈ assets, ∀ a, asset.content = .allocation a →
        (a.items.map AllocationItem.destination).Nodup := by
  induction assets generalizing seen with
  | nil => simp [validateFrom]
  | cons first others ih =>
    -- What is checked about an asset itself does not depend on those before it.
    have checked :
        (∀ e, first.content.allocation?.map Allocation.checkDistinct ≠ some (.error e)) ↔
          ∀ a, first.content = .allocation a →
            (a.items.map AllocationItem.destination).Nodup := by
      cases first.content with
      | guarantee g => simp [AssetContent.allocation?]
      | allocation a =>
        simp only [AssetContent.allocation?, Option.map_some, ne_eq, Option.some.injEq,
          AssetContent.allocation.injEq, forall_eq', ← Allocation.checkDistinct_eq_ok_iff]
        cases a.checkDistinct <;> simp
    unfold validateFrom
    split
    · rename_i repeated
      refine iff_of_false nofun ?_
      rintro ⟨⟨-, fresh⟩, -⟩
      exact fresh first List.mem_cons_self repeated
    · rename_i new
      split
      · rename_i e fault
        refine iff_of_false nofun ?_
        rintro ⟨-, distinct⟩
        exact checked.2 (distinct first List.mem_cons_self) e fault
      · rename_i fine
        have own := checked.1 fun e => fine e
        rw [ih]
        simp only [List.map_cons, List.nodup_cons, List.mem_map, List.forall_mem_cons]
        constructor
        · rintro ⟨⟨distinct, fresh⟩, rest⟩
          refine ⟨⟨⟨?_, distinct⟩, new, fun asset member => ?_⟩, own, rest⟩
          · rintro ⟨asset, member, same⟩
            exact fresh asset member (same ▸ List.mem_cons_self)
          · exact fun before => fresh asset member (List.mem_cons_of_mem _ before)
        · rintro ⟨⟨⟨missing, distinct⟩, -, fresh⟩, -, rest⟩
          refine ⟨⟨distinct, fun asset member before => ?_⟩, rest⟩
          rcases List.mem_cons.1 before with same | before
          · exact missing ⟨asset, member, same⟩
          · exact fresh asset member before

/-- The check accepts exactly the valid outcomes. -/
theorem validate_eq_ok_iff {o : Outcome} : o.validate = .ok () ↔ o.Valid := by
  simp [validate, validateFrom_eq_ok_iff, Valid]

end Outcome

end StateChannels
