/-!
# Editions of TOML

Option files are read and written in one edition of the format, the files of a project's automation
in an older one. The editions differ in the escapes of basic strings, in the layout of inline
tables, and in what a document may say of a table in several places.
-/

namespace Hocon

namespace Toml

/-- An edition of the format. -/
inductive Edition where
  /-- TOML 1.0. -/
  | first
  /-- TOML 1.1. -/
  | second
  deriving DecidableEq, Repr

end Toml

end Hocon
