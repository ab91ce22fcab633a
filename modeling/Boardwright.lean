import Boardwright.Artifacts
import Boardwright.Assets
import Boardwright.Binary64
import Boardwright.Binary64.Shortest
import Boardwright.Binding
import Boardwright.Board.Literal
import Boardwright.Board.Platform
import Boardwright.Board.ValueType
import Boardwright.Build
import Boardwright.BuildConfig
import Boardwright.Closure
import Boardwright.Closure.Directory
import Boardwright.CommandLine
import Boardwright.ComponentType.Contract
import Boardwright.ComponentType.Instance
import Boardwright.ComponentType.Looper
import Boardwright.ComponentType.Property
import Boardwright.ComponentType.Signature
import Boardwright.Conformance
import Boardwright.Description.Document
import Boardwright.Description.ModuleDescription
import Boardwright.Description.ProjectDescription
import Boardwright.Dict
import Boardwright.Digest.Sha256
import Boardwright.Failure
import Boardwright.FileTree
import Boardwright.FileTree.Directories
import Boardwright.FileTree.Files
import Boardwright.FileTree.Walk
import Boardwright.Generation.CoreSource
import Boardwright.Generation.LooperTable
import Boardwright.Generation.Objects
import Boardwright.Generation.Pipeline
import Boardwright.Generation.ProjectHeader
import Boardwright.Generation.Sketch
import Boardwright.Generation.Standard
import Boardwright.Generation.State
import Boardwright.Generation.StoredTemplate
import Boardwright.Json.Number
import Boardwright.Json.Shape
import Boardwright.Json.Stream
import Boardwright.Json.Token
import Boardwright.Json.Value
import Boardwright.Main
import Boardwright.Module
import Boardwright.Path
import Boardwright.Project
import Boardwright.Schedule
import Boardwright.Settings
import Boardwright.Settings.Document
import Boardwright.Storage.Layout
import Boardwright.Storage.Version
import Boardwright.Text.Blank
import Boardwright.Text.Decimal
import Boardwright.Text.Lines
import Boardwright.Text.Numeral
import Boardwright.Text.Template
import Boardwright.Proofs.Blank
import Boardwright.Proofs.Changes
import Boardwright.Proofs.Cleaning
import Boardwright.Proofs.Closure
import Boardwright.Proofs.Conformance
import Boardwright.Proofs.Declarations
import Boardwright.Proofs.FallibleSteps
import Boardwright.Proofs.Layout
import Boardwright.Proofs.Paths
import Boardwright.Proofs.Pipeline
import Boardwright.Proofs.Preparation
import Boardwright.Proofs.Removal
import Boardwright.Proofs.Schedule
import Boardwright.Proofs.Stages
import Boardwright.Proofs.Walking
import Boardwright.Proofs.WellNamed
import Boardwright.Proofs.Work
import Boardwright.Proofs.Library
import Boardwright.Proofs.Confinement
import Boardwright.Proofs.Region
import Boardwright.Proofs.Repetition
import Boardwright.Proofs.Shipment
import Boardwright.Proofs.Overlaps
import Boardwright.Proofs.FlatNames
import Boardwright.Proofs.Outputs
import Boardwright.Proofs.Views
import Boardwright.Proofs.Lines
import Boardwright.Proofs.Handlers
import Boardwright.Proofs.Templates
import Boardwright.Proofs.Saved
import Boardwright.Proofs.StoredItems
import Boardwright.Proofs.EffectiveValues
import Boardwright.Proofs.Contract
import Boardwright.Proofs.FreshStart
import Boardwright.Proofs.LoadedModules
import Boardwright.Proofs.LoadedProjects
import Boardwright.Proofs.Numerals
import Boardwright.Proofs.Constants
import Boardwright.Proofs.ByteOrder
import Boardwright.Proofs.Layers
import Boardwright.Proofs.ModulePlaces
import Boardwright.Proofs.LooperSection
import Boardwright.Proofs.LooperNumbers
import Boardwright.Proofs.Characters
import Boardwright.Proofs.PlacedControllers
import Boardwright.Proofs.ObjectNames
import Boardwright.Proofs.ProgramShape
import Boardwright.Proofs.TextLiterals
import Boardwright.Proofs.Substitution
import Boardwright.Proofs.LooperQueue
import Boardwright.Proofs.LooperTimes
import Boardwright.Proofs.Registry
import Boardwright.Proofs.KeptEntries
import Boardwright.Proofs.Mirroring
import Boardwright.Proofs.ParameterNames
