import Hocon.Log.Message
import Hocon.Log.Setup
import Hocon.Options.Bundle
import Hocon.Options.File
import Hocon.Project.Session
import Hocon.Proofs.Composition
import Hocon.Proofs.Indentation
import Hocon.Proofs.Reading
import Hocon.Tree
import Hocon.Value.Equality
import Hocon.Proofs.Comments
import Hocon.Proofs.Reports
import Hocon.Proofs.Octets
import Hocon.Proofs.Toml.Atoms
import Hocon.Proofs.Toml.Lines
import Hocon.Proofs.Toml.Sections
import Hocon.Proofs.OptionFile
import Hocon.Proofs.Decisions
import Hocon.Proofs.OptionEntries
import Hocon.Proofs.Loading
import Hocon.Proofs.Whitespace
import Hocon.Proofs.Fitting
import Hocon.Proofs.ListText
import Hocon.Proofs.Requoting
import Hocon.Proofs.Json
import Hocon.Proofs.Layers
import Hocon.Proofs.LineBreaks
import Hocon.Proofs.PlainData
import Hocon.Proofs.ChangingLists
import Hocon.Proofs.SectionNames
import Hocon.Proofs.Spellings
import Hocon.Proofs.Numerals
import Hocon.Proofs.LogLevel
import Hocon.Proofs.Versions
import Hocon.Proofs.Toml.Nulls
