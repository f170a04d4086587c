import RepoOrbit.Camera.Controller
import RepoOrbit.Camera.Pose
import RepoOrbit.Camera.Writing
import RepoOrbit.CommandLine.Arguments
import RepoOrbit.CommandLine.Hands
import RepoOrbit.CommandLine.Number
import RepoOrbit.CommandLine.Option
import RepoOrbit.CommandLine.Outcome
import RepoOrbit.CommandLine.Program
import RepoOrbit.CommandLine.Repository
import RepoOrbit.CommandLine.Values
import RepoOrbit.Control.Rehearsal
import RepoOrbit.Control.Session
import RepoOrbit.Control.Tracker
import RepoOrbit.Decimal.Binary
import RepoOrbit.Decimal.Places
import RepoOrbit.Decimal.Shortest
import RepoOrbit.Fetch.Call
import RepoOrbit.Fetch.Fault
import RepoOrbit.Fetch.Fetcher
import RepoOrbit.Fetch.Git
import RepoOrbit.Fetch.HostAddress
import RepoOrbit.Fetch.Rehearsal
import RepoOrbit.Fetch.Repository
import RepoOrbit.Fetch.Url
import RepoOrbit.Files.Tree
import RepoOrbit.Files.Walk
import RepoOrbit.Files.Write
import RepoOrbit.Gesture.Hand
import RepoOrbit.Gesture.Interpreter
import RepoOrbit.Gesture.Scalar
import RepoOrbit.Grammar.Automaton
import RepoOrbit.Grammar.Language
import RepoOrbit.Grammar.Parse
import RepoOrbit.Grammar.Production
import RepoOrbit.Grammar.Rule
import RepoOrbit.Grammar.Stack
import RepoOrbit.Grammar.Token
import RepoOrbit.Grammar.TokenSet
import RepoOrbit.Graph.Build
import RepoOrbit.Graph.Category
import RepoOrbit.Graph.Display
import RepoOrbit.Graph.Document
import RepoOrbit.Graph.Reading
import RepoOrbit.Graph.Reduce
import RepoOrbit.Graph.Writing
import RepoOrbit.Imports.Edges
import RepoOrbit.Imports.Occurrence
import RepoOrbit.Imports.Specifier
import RepoOrbit.Main
import RepoOrbit.Path
import RepoOrbit.Proofs.Camera.Anchors
import RepoOrbit.Proofs.Camera.Answers
import RepoOrbit.Proofs.Camera.Bounds
import RepoOrbit.Proofs.Camera.Centring
import RepoOrbit.Proofs.Camera.Custody
import RepoOrbit.Proofs.Camera.Drags
import RepoOrbit.Proofs.Camera.Easing
import RepoOrbit.Proofs.Camera.Passes
import RepoOrbit.Proofs.Camera.Poses
import RepoOrbit.Proofs.Camera.Remembered
import RepoOrbit.Proofs.Camera.Steps
import RepoOrbit.Proofs.Camera.Timeout
import RepoOrbit.Proofs.Control.Absence
import RepoOrbit.Proofs.Control.Loops
import RepoOrbit.Proofs.Control.Release
import RepoOrbit.Proofs.Control.Runs
import RepoOrbit.Proofs.Fetch.Addresses
import RepoOrbit.Proofs.Fetch.Again
import RepoOrbit.Proofs.Fetch.Atomicity
import RepoOrbit.Proofs.Fetch.BaseAddresses
import RepoOrbit.Proofs.Fetch.ClonePlaces
import RepoOrbit.Proofs.Fetch.Confinement
import RepoOrbit.Proofs.Fetch.Coverage
import RepoOrbit.Proofs.Fetch.Endpoint
import RepoOrbit.Proofs.Fetch.Exclusion
import RepoOrbit.Proofs.Fetch.Failure
import RepoOrbit.Proofs.Fetch.HostAddresses
import RepoOrbit.Proofs.Fetch.Identifiers
import RepoOrbit.Proofs.Fetch.Messages
import RepoOrbit.Proofs.Fetch.OneClone
import RepoOrbit.Proofs.Fetch.Origin
import RepoOrbit.Proofs.Fetch.Stages
import RepoOrbit.Proofs.Fetch.Steps
import RepoOrbit.Proofs.Files.Dangling
import RepoOrbit.Proofs.Files.Discovery
import RepoOrbit.Proofs.Files.Listing
import RepoOrbit.Proofs.Files.Lookup
import RepoOrbit.Proofs.Files.Places
import RepoOrbit.Proofs.Files.Pruning
import RepoOrbit.Proofs.Files.Sources
import RepoOrbit.Proofs.Files.Unseen
import RepoOrbit.Proofs.Files.Walk
import RepoOrbit.Proofs.Gesture.Activity
import RepoOrbit.Proofs.Gesture.Angles
import RepoOrbit.Proofs.Gesture.Events
import RepoOrbit.Proofs.Gesture.Exact
import RepoOrbit.Proofs.Gesture.Histories
import RepoOrbit.Proofs.Gesture.Hysteresis
import RepoOrbit.Proofs.Gesture.Knob
import RepoOrbit.Proofs.Gesture.Limited
import RepoOrbit.Proofs.Gesture.Mirror
import RepoOrbit.Proofs.Gesture.OneHand
import RepoOrbit.Proofs.Gesture.Ranges
import RepoOrbit.Proofs.Gesture.Runs
import RepoOrbit.Proofs.Graph.Capping
import RepoOrbit.Proofs.Graph.Categories
import RepoOrbit.Proofs.Graph.Coherence
import RepoOrbit.Proofs.Graph.Dangling
import RepoOrbit.Proofs.Graph.Degrees
import RepoOrbit.Proofs.Graph.Directories
import RepoOrbit.Proofs.Graph.Drawing
import RepoOrbit.Proofs.Graph.Enumeration
import RepoOrbit.Proofs.Graph.FileView
import RepoOrbit.Proofs.Graph.Ids
import RepoOrbit.Proofs.Graph.ReadBack
import RepoOrbit.Proofs.Graph.Rearranged
import RepoOrbit.Proofs.Graph.Unseen
import RepoOrbit.Proofs.Graph.Views
import RepoOrbit.Proofs.Imports.Occurrences
import RepoOrbit.Proofs.Imports.Resolution
import RepoOrbit.Proofs.Imports.Routes
import RepoOrbit.Proofs.Imports.Selection
import RepoOrbit.Proofs.Imports.Spellings
import RepoOrbit.Proofs.Imports.Statements
import RepoOrbit.Proofs.Imports.Trees
import RepoOrbit.Proofs.Lists
import RepoOrbit.Proofs.Rounds
import RepoOrbit.Proofs.Scan.Coalescing
import RepoOrbit.Proofs.Scan.GivingUp
import RepoOrbit.Proofs.Scan.Reporting
import RepoOrbit.Proofs.Scan.Starters
import RepoOrbit.Proofs.Sorting
import RepoOrbit.Proofs.Text.Credentials
import RepoOrbit.Proofs.Text.LowerCase
import RepoOrbit.Proofs.Text.Redaction
import RepoOrbit.Proofs.Text.Substitution
import RepoOrbit.Scan.Outcome
import RepoOrbit.Scan.Rehearsal
import RepoOrbit.Scan.Service
import RepoOrbit.Script.Context
import RepoOrbit.Script.JavaScript
import RepoOrbit.Script.Lexicon
import RepoOrbit.Script.TypeScript
import RepoOrbit.Settings.Dotenv
import RepoOrbit.Settings.Settings
import RepoOrbit.Syntax.Reading
import RepoOrbit.Syntax.Tree
import RepoOrbit.Text.Cased
import RepoOrbit.Text.Digits
import RepoOrbit.Text.Json
import RepoOrbit.Text.Lossy
import RepoOrbit.Text.LowerCase
import RepoOrbit.Text.Printable
import RepoOrbit.Text.Quoted
import RepoOrbit.Text.Ranges
import RepoOrbit.Text.Redact
import RepoOrbit.Text.Similar
import RepoOrbit.Text.WordChar
import RepoOrbit.Validation.Checked
import RepoOrbit.Validation.Issue
import RepoOrbit.Validation.Numeral
import RepoOrbit.Validation.Scalar
import RepoOrbit.Validation.Value
