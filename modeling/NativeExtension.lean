import NativeExtension.Main
import NativeExtension.Ninja.Expansion
import NativeExtension.Ninja.RoundTrip
import NativeExtension.Text.RoundTrip
import NativeExtension.Proofs.Path.Spelling
import NativeExtension.Proofs.Text.Ascii
import NativeExtension.Proofs.Ninja.Lines
import NativeExtension.Proofs.Ninja.Contents
import NativeExtension.Proofs.Arguments.Quoting
import NativeExtension.Proofs.Ninja.Reading
import NativeExtension.Proofs.Ninja.Settling
import NativeExtension.Proofs.Ninja.ReadBack
import NativeExtension.Proofs.Arguments.Words
import NativeExtension.Proofs.Path.Absolute
import NativeExtension.Proofs.Ninja.Commands
import NativeExtension.Proofs.Session.Frame
import NativeExtension.Proofs.Session.Loading
import NativeExtension.Proofs.Session.Run
import NativeExtension.Proofs.Session.Registry
import NativeExtension.Proofs.Session.Binding
import NativeExtension.Proofs.Ninja.Graph
import NativeExtension.Proofs.Path.Components
import NativeExtension.Proofs.Machine.Route
import NativeExtension.Proofs.Machine.Edits
import NativeExtension.Proofs.Machine.Writing
import NativeExtension.Proofs.Machine.Quiet
import NativeExtension.Proofs.Session.Course
import NativeExtension.Proofs.Session.BuildCourse
import NativeExtension.Proofs.Session.Stages
import NativeExtension.Proofs.Session.Workspaces
import NativeExtension.Proofs.Session.Anchoring
import NativeExtension.Proofs.Path.Shown
import NativeExtension.Proofs.Path.Tidy
import NativeExtension.Proofs.Path.Respelled
import NativeExtension.Proofs.Text.Telling
import NativeExtension.Proofs.Ninja.Respelling
import NativeExtension.Proofs.Ninja.Spellings
import NativeExtension.Proofs.Ninja.Compilations
import NativeExtension.Proofs.Machine.Programs
import NativeExtension.Proofs.Machine.Twins
import NativeExtension.Proofs.Machine.Launches
import NativeExtension.Proofs.Session.RunnerStart
import NativeExtension.Proofs.Session.Advice
import NativeExtension.Proofs.Session.Remembering
import NativeExtension.Proofs.Session.Caches
import NativeExtension.Proofs.Ninja.DefaultTarget
import NativeExtension.Proofs.Machine.Again
import NativeExtension.Proofs.Session.Completion
import NativeExtension.Proofs.Session.ArtifactNames
import NativeExtension.Proofs.Session.LinkedLibrary
import NativeExtension.Proofs.Session.Rebuild
import NativeExtension.Proofs.Session.SideBySide
import NativeExtension.Proofs.Session.OwnFiles
import NativeExtension.Proofs.Cli.Commands
import NativeExtension.Proofs.Cli.Agreement
import NativeExtension.Proofs.Ninja.CudaReach
import NativeExtension.Proofs.Requests
import NativeExtension.Proofs.Arguments.WindowsWords
import NativeExtension.Proofs.Text.Numerals
import NativeExtension.Proofs.Toolchain.VersionSearch
import NativeExtension.Proofs.Toolchain.VersionPattern
import NativeExtension.Proofs.Toolchain.LowerCase
import NativeExtension.Proofs.Session.CompilerVerdict
import NativeExtension.Proofs.Machine.Listing
import NativeExtension.Proofs.Session.ArtifactSearch
import NativeExtension.Proofs.Text.Decoding
import NativeExtension.Proofs.Text.FirstLine
import NativeExtension.Proofs.Toolchain.NewestVersion
import NativeExtension.Proofs.Session.CompilerRoot
import NativeExtension.Proofs.Cli.Formats
import NativeExtension.Proofs.SafeNames
