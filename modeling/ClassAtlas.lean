import ClassAtlas.ClassFile.AccessFlags
import ClassAtlas.ClassFile.Attribute
import ClassAtlas.ClassFile.AttributeReader
import ClassAtlas.ClassFile.ConstantPool
import ClassAtlas.ClassFile.Decode
import ClassAtlas.ClassFile.DecodeError
import ClassAtlas.ClassFile.Description
import ClassAtlas.ClassFile.PoolReader
import ClassAtlas.ClassFile.Reader
import ClassAtlas.CommandLine.Arguments
import ClassAtlas.CommandLine.Run
import ClassAtlas.Completion.Collector
import ClassAtlas.Completion.Documentation
import ClassAtlas.Completion.Keyword
import ClassAtlas.Completion.Member
import ClassAtlas.Descriptor
import ClassAtlas.Engine.Basic
import ClassAtlas.Engine.Calls
import ClassAtlas.Engine.Completions
import ClassAtlas.Engine.Config
import ClassAtlas.Engine.Invalidation
import ClassAtlas.Library.Basic
import ClassAtlas.Library.ClassSource
import ClassAtlas.Library.Index
import ClassAtlas.Library.Location
import ClassAtlas.Library.PackageTree
import ClassAtlas.Library.SourceText
import ClassAtlas.Library.Supertypes
import ClassAtlas.Main
import ClassAtlas.Signature
import ClassAtlas.Storage.FileTree
import ClassAtlas.Storage.Inflate
import ClassAtlas.Storage.Path
import ClassAtlas.Storage.Zip
import ClassAtlas.Table
import ClassAtlas.Text.Alphanumeric
import ClassAtlas.Text.Blank
import ClassAtlas.Text.Dotted
import ClassAtlas.Text.LetterCase
import ClassAtlas.Text.ModifiedUtf8
import ClassAtlas.Text.Printable
import ClassAtlas.Text.Quoted
import ClassAtlas.Text.Utf8
import ClassAtlas.Types.AliasRegistry
import ClassAtlas.Types.Assignability
import ClassAtlas.Types.Conversion
import ClassAtlas.Types.Declaration
import ClassAtlas.Types.Hierarchy
import ClassAtlas.Types.Inquiry
import ClassAtlas.Types.Overload
import ClassAtlas.Walk
import ClassAtlas.Proofs.ClassFile.Meaning
import ClassAtlas.Proofs.ClassFile.RawClass
import ClassAtlas.Proofs.DescriptorGrammar
import ClassAtlas.Proofs.ClassFile.ReaderExactness
import ClassAtlas.Proofs.ClassFile.PoolExactness
import ClassAtlas.Proofs.ClassFile.AttributeExactness
import ClassAtlas.Proofs.ClassFile.DecodeExactness
import ClassAtlas.Proofs.Engine.Runs
import ClassAtlas.Proofs.Library.Ownership
import ClassAtlas.Proofs.Library.Survivors
import ClassAtlas.Proofs.Walk
import ClassAtlas.Proofs.Library.Requests
import ClassAtlas.Proofs.Engine.Coherence
import ClassAtlas.Proofs.Engine.Removal
import ClassAtlas.Proofs.FirstWays
import ClassAtlas.Proofs.Engine.States
import ClassAtlas.Proofs.Engine.Resolution
import ClassAtlas.Proofs.Engine.Hiding
import ClassAtlas.Proofs.Types.Scores
import ClassAtlas.Proofs.Engine.Invalidation
import ClassAtlas.Proofs.ClassFile.Continuation
import ClassAtlas.Proofs.ClassFile.Truncation
import ClassAtlas.Proofs.ClassFile.PoolInvariant
import ClassAtlas.Proofs.Engine.CallHistory
import ClassAtlas.Proofs.Library.PathLists
import ClassAtlas.Proofs.Engine.WrittenNames
import ClassAtlas.Proofs.Types.Ancestry
import ClassAtlas.Proofs.Engine.Assignability
import ClassAtlas.Proofs.Types.Winners
import ClassAtlas.Proofs.Engine.OwnSignatures
import ClassAtlas.Proofs.Types.AssignmentRules
import ClassAtlas.Proofs.ClassFile.Nesting
import ClassAtlas.Proofs.Storage.Places
import ClassAtlas.Proofs.Library.Enumeration
import ClassAtlas.Proofs.Types.Acceptance
import ClassAtlas.Proofs.Types.StableSelection
import ClassAtlas.Proofs.Signature.Layout
import ClassAtlas.Proofs.Signature.Exactness
import ClassAtlas.Proofs.Library.PackageLeaves
import ClassAtlas.Proofs.Library.ClassListing
import ClassAtlas.Proofs.Library.SharedSlots
import ClassAtlas.Proofs.Types.AliasDirections
import ClassAtlas.Proofs.Types.AliasLayers
import ClassAtlas.Proofs.Types.CanonicalSpelling
import ClassAtlas.Proofs.Text.Encodings
import ClassAtlas.Proofs.ClassFile.TextConstants
import ClassAtlas.Proofs.ClassFile.ParameterSlots
import ClassAtlas.Proofs.ClassFile.AttributeLists
import ClassAtlas.Proofs.ClassFile.Outline
import ClassAtlas.Proofs.ClassFile.FaultContainment
import ClassAtlas.Proofs.Library.RootContainment
import ClassAtlas.Proofs.ClassFile.OverloadKeys
import ClassAtlas.Proofs.Engine.KeptOverloads
