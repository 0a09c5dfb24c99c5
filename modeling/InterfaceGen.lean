import InterfaceGen.Main
import InterfaceGen.Proofs.Conversion.Collision
import InterfaceGen.Proofs.Conversion.Mirroring
import InterfaceGen.Proofs.Conversion.Preview
import InterfaceGen.Proofs.Declaration.Grammar
import InterfaceGen.Proofs.Declaration.Layout
import InterfaceGen.Proofs.Generation.Independence
import InterfaceGen.Proofs.Interface.ImportPath
import InterfaceGen.Proofs.Interface.Imports
import InterfaceGen.Proofs.Model.Extraction
import InterfaceGen.Storage.Disk
import InterfaceGen.Storage.Listing
import InterfaceGen.Proofs.Interface.Reading
import InterfaceGen.Proofs.Text.Bytes
import InterfaceGen.Proofs.Source.Exactness
import InterfaceGen.Proofs.Conversion.Stopping
import InterfaceGen.Proofs.Model.Composition
import InterfaceGen.Proofs.Interface.Meaning
import InterfaceGen.Proofs.Settings.RoundTrip
import InterfaceGen.Proofs.Model.Hiding
import InterfaceGen.Proofs.Model.Naming
import InterfaceGen.Proofs.Model.Duplicates
import InterfaceGen.Proofs.Interface.Exactness
import InterfaceGen.Proofs.Declaration.Modifiers
import InterfaceGen.Proofs.Text.Settling
import InterfaceGen.Proofs.Path.NormalForm
import InterfaceGen.Proofs.Storage.Calls
import InterfaceGen.Proofs.Conversion.Spelling
import InterfaceGen.Proofs.Declaration.Words
import InterfaceGen.Proofs.Source.Placement
import InterfaceGen.Proofs.Conversion.Footprint
