import InscriptionLedger.Text.Utf8

/-!
# Inscriptions

An inscription carries a body and the type of its content; either may be absent, and an empty one is
not absent.

## Main definitions

* `Inscription`: the content of one envelope
* `Inscription.contentLength`, `Inscription.contentTypeText`: what views tell of it
* `Entry`: what the index records of an inscription besides its content
-/

namespace InscriptionLedger

/-- The content of one envelope. -/
structure Inscription where
  body : Option Bytes := none
  contentType : Option Bytes := none
  deriving DecidableEq, Repr

/-- The number of bytes of the body. -/
def Inscription.contentLength (i : Inscription) : Option Nat := i.body.map List.length

/-- The text of the content type. -/
def Inscription.contentTypeText (i : Inscription) : Option String := i.contentType.map Utf8.decode

/-- What the index records of an inscription besides its content: its number, the height of its
block, the fee paid, the time of the block, and the satoshi if it is known. -/
structure Entry where
  number : Int
  height : Int
  fee : Int
  timestamp : Int
  sat : Option Int
  deriving DecidableEq, Repr

end InscriptionLedger
