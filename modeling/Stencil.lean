import Stencil.Binary64
import Stencil.Binary64.Reading
import Stencil.Config
import Stencil.Config.Json
import Stencil.Config.Problem
import Stencil.Config.Yaml
import Stencil.Dict
import Stencil.Engine
import Stencil.Expansion
import Stencil.History
import Stencil.Json.Value
import Stencil.Json.Printer
import Stencil.Json.Reader
import Stencil.Piece
import Stencil.Piece.Cursor
import Stencil.Text
import Stencil.Text.Shown
import Stencil.Yaml.Document
import Stencil.Yaml.Event
import Stencil.Yaml.Scalar
import Stencil.Yaml.Resolution
import Stencil.Yaml.Source
import Stencil.Yaml.Tag
import Stencil.Yaml.Token
import Stencil.Proofs.Piece.Scan
import Stencil.Proofs.Text.Cut
import Stencil.Proofs.Text.Bytes
import Stencil.Proofs.Piece.Cursor
import Stencil.Proofs.Dict
import Stencil.Proofs.Expansion
import Stencil.Proofs.Engine.Compile
import Stencil.Proofs.Engine.Setting
import Stencil.Proofs.Engine.Summary
import Stencil.Proofs.Engine.Validity
import Stencil.Proofs.Engine.Recompile
import Stencil.Proofs.Engine.Padding
import Stencil.Proofs.Engine.Seams
import Stencil.Proofs.Json.Printer
import Stencil.Proofs.Json.Number
import Stencil.Proofs.Json.Value
import Stencil.Proofs.Json.Reader
import Stencil.Proofs.Config.Json
import Stencil.Proofs.Json.Slashes
import Stencil.Proofs.Watch
import Stencil.Proofs.Engine.Parts
import Stencil.Proofs.Piece.Closed
import Stencil.Proofs.Unescape
import Stencil.Proofs.Engine.Writable
import Stencil.Proofs.Config.Apply
import Stencil.Proofs.Config.Nested
import Stencil.Proofs.Inert
import Stencil.Proofs.Engine.Influence
import Stencil.Proofs.Engine.Bulk
import Stencil.Proofs.Conservation
import Stencil.Proofs.Config.Draft
import Stencil.Proofs.Config.Shape
