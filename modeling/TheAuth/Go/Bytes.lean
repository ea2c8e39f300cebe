import Mathlib.Data.List.Basic

/-!
# Go strings

A Go string is a sequence of bytes, and indexing, comparison and slicing work on them.
-/

set_option autoImplicit false

namespace TheAuth.Go

abbrev Bytes := List UInt8

instance : LawfulBEq Bytes := inferInstance

def str (text : String) : Bytes := text.toUTF8.data.toList

end TheAuth.Go
