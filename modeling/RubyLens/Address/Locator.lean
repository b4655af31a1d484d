import RubyLens.Address.Uri
import RubyLens.Files

/-!
Locators, under which documents are kept. Identifiers that are written in different ways may have one
locator. What is to be known of a kind of locators is how one is read, how it is written and where
it points; nothing that is said of open documents depends on more.
-/

namespace RubyLens

/-- A kind of locators. -/
class Locator (L : Type) where
  /-- Reads a locator, in whatever way it is written. -/
  parse? : String → Option L
  text : L → String
  /-- The path of the file that a locator names, if it names one on this computer. -/
  filePath? : L → Option Path
  /-- The path as it is written. -/
  pathText : L → String

variable {L : Type} [Locator L]

/-- The locator that an identifier stands for. -/
def Uri.locator? (u : Uri) : Option L := Locator.parse? u.text

namespace Locator

/-- The identifier that is written like a locator. -/
def uri? (u : L) : Option Uri := Uri.ofString? (text u)

/-- The path under which a document is linted: its file, or else what stands behind the host. -/
def documentPath (u : L) : String := (filePath? u).getD (pathText u)

end Locator

end RubyLens
