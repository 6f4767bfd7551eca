import Palimesh.Settlement.Contract

namespace Palimesh.Settlement

/-- A hash written out: the fields it was taken of, each with what is needed to read it back. -/
inductive Token
  | hash
  | word (length : Nat)
  | bytes16 (value : Nat)
  | uint (bits value : Nat)
  | account (address : Address)
  | text (value : String)
  | bytes (value : Bytes)
deriving DecidableEq

abbrev Term := List Token

def Field.tokens : Field Term → Term
  | .bytes32 value => .word value.length :: value
  | .bytes16 value => [.bytes16 value]
  | .uint bits value => [.uint bits value]
  | .account address => [.account address]
  | .text value => [.text value]
  | .bytes value => [.bytes value]

def symbolicHash (fields : List (Field Term)) : Term := .hash :: fields.flatMap Field.tokens

theorem Field.tokens_append {field other : Field Term} {rest others : Term}
    (same : field.tokens ++ rest = other.tokens ++ others) : field = other ∧ rest = others := by
  cases field with
  | bytes32 value =>
    cases other with
    | bytes32 value' =>
      simp only [tokens, List.cons_append, List.cons.injEq, Token.word.injEq] at same
      obtain ⟨rfl, tails⟩ := List.append_inj same.2 same.1
      exact ⟨rfl, tails⟩
    | _ => simp [tokens] at same
  | _ =>
    cases other with
    | bytes32 value' => simp [tokens] at same
    | _ => simp_all [tokens]

theorem symbolicHash_injective : Function.Injective symbolicHash := by
  intro fields others same
  have tokens := List.cons.inj same
  replace tokens := tokens.2
  induction fields generalizing others with
  | nil =>
    cases others with
    | nil => rfl
    | cons other others => cases other <;> simp [Field.tokens] at tokens
  | cons field fields ih =>
    cases others with
    | nil => cases field <;> simp [Field.tokens] at tokens
    | cons other others =>
      rw [List.flatMap_cons, List.flatMap_cons] at tokens
      obtain ⟨rfl, rest⟩ := Field.tokens_append tokens
      rw [ih (by rw [symbolicHash, rest]; rfl) rest]

/-- A signature names, in its first word, the entry of the list of what was signed that it stands for. -/
def symbolicCrypto (signatures : List (Address × Term)) (evidence : Term × List Term × EvidenceLeafV2 Term) :
    Crypto Term where
  keccak256 := symbolicHash
  toUint := List.length
  ecrecover := fun digest _ r _ =>
    match signatures[r]? with
    | some (signer, message) => if message = digest then signer else 0
    | none => 0
  decodeEvidence := fun _ => some evidence

end Palimesh.Settlement
