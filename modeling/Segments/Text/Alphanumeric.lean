import Segments.Text.Category
import Segments.Text.Property

namespace Segments.Text

def alphanumeric : CodeSet :=
  Property.alphabetic.set.union
    (.ofCategories [.decimalNumber, .letterNumber, .otherNumber])

def isAlphanumeric (c : Char) : Bool :=
  c.isAlphanum || (0x80 ≤ c.toNat && alphanumeric.contains c)

end Segments.Text
