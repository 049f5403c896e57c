import EndpointAtlas.Document.Decode
import EndpointAtlas.Main
import EndpointAtlas.Proofs.Aliases.AsciiPaths
import EndpointAtlas.Proofs.Aliases.Document
import EndpointAtlas.Proofs.Aliases.ImportBlock
import EndpointAtlas.Proofs.Annotations.Fields
import EndpointAtlas.Proofs.Annotations.Rows
import EndpointAtlas.Proofs.Annotations.Styles
import EndpointAtlas.Proofs.CommandLine.Agreement
import EndpointAtlas.Proofs.Document.ReadBack
import EndpointAtlas.Proofs.Go.Grouping.Files
import EndpointAtlas.Proofs.Go.ImportNames
import EndpointAtlas.Proofs.Go.ModuleLines
import EndpointAtlas.Proofs.Go.TrailingComments
import EndpointAtlas.Proofs.Params.LastNote
import EndpointAtlas.Proofs.Params.Placeholders
import EndpointAtlas.Proofs.Paths.Containment
import EndpointAtlas.Proofs.Registration.Annotated
import EndpointAtlas.Proofs.Registration.Citations
import EndpointAtlas.Proofs.Registration.Expansion
import EndpointAtlas.Proofs.Registration.Keys
import EndpointAtlas.Proofs.Registration.MethodNames
import EndpointAtlas.Proofs.Registration.OpaqueFields
import EndpointAtlas.Proofs.Scan.Packages
import EndpointAtlas.Proofs.Schemas.Required
import EndpointAtlas.Proofs.Schemas.Spellings
import EndpointAtlas.Proofs.Schemas.TagEntries
import EndpointAtlas.Proofs.Schemas.WireShape
import EndpointAtlas.Proofs.Settings.ModulePath
import EndpointAtlas.Proofs.Settings.NearerFile
