import SchemaDocs.Text.Slug
import SchemaDocs.Text.Punctuation
import SchemaDocs.Json.Reader
import SchemaDocs.Json.Printer
import SchemaDocs.Schema.Format
import SchemaDocs.Schema.Registry
import SchemaDocs.Markdown.Renderer
import SchemaDocs.Page.Basic
import SchemaDocs.Toml.Document
import SchemaDocs.Site.Output
import SchemaDocs.Navigation.Merge
import SchemaDocs.Project.Command
import SchemaDocs.Storage.Archive
import SchemaDocs.Main
import SchemaDocs.Proofs.Schema.Declared
import SchemaDocs.Proofs.Schema.Names
import SchemaDocs.Proofs.Schema.Lookup
import SchemaDocs.Proofs.Schema.Registration
import SchemaDocs.Proofs.Schema.Outcome
import SchemaDocs.Proofs.Navigation.Nodes
import SchemaDocs.Proofs.Navigation.Links
import SchemaDocs.Proofs.Navigation.Depth
import SchemaDocs.Proofs.Navigation.View
import SchemaDocs.Proofs.Navigation.Runs
import SchemaDocs.Proofs.Sequence
import SchemaDocs.Proofs.Storage.Places
import SchemaDocs.Proofs.Storage.Growth
import SchemaDocs.Proofs.Site.Journal
import SchemaDocs.Proofs.Site.Steps
import SchemaDocs.Proofs.Site.Stages
import SchemaDocs.Proofs.Site.Completeness
import SchemaDocs.Proofs.Site.References
import SchemaDocs.Proofs.Reference.Documents
import SchemaDocs.Proofs.Page.Candidates
import SchemaDocs.Proofs.Page.Names
import SchemaDocs.Proofs.Navigation.Layout
import SchemaDocs.Proofs.Navigation.Arrangement
import SchemaDocs.Proofs.Navigation.Placement
import SchemaDocs.Proofs.Navigation.Rehoming
import SchemaDocs.Proofs.Navigation.Grafting
import SchemaDocs.Proofs.Navigation.Shape
import SchemaDocs.Proofs.Navigation.Collisions
import SchemaDocs.Proofs.Markdown.Addresses
import SchemaDocs.Proofs.Markdown.Markup
import SchemaDocs.Proofs.Markdown.Writing
import SchemaDocs.Proofs.Markdown.Safety
import SchemaDocs.Proofs.Markdown.Anchors
import SchemaDocs.Proofs.Markdown.AnchorSearch
import SchemaDocs.Proofs.Markdown.Contents
import SchemaDocs.Proofs.Storage.Frame
import SchemaDocs.Proofs.Page.Paths
import SchemaDocs.Proofs.Site.Requests
import SchemaDocs.Proofs.Site.Plans
import SchemaDocs.Proofs.Site.Paths
import SchemaDocs.Proofs.Site.Namespaces
import SchemaDocs.Proofs.Storage.Making
import SchemaDocs.Proofs.Site.Room
import SchemaDocs.Proofs.Site.Blocking
import SchemaDocs.Proofs.Markdown.Identities
import SchemaDocs.Proofs.Reference.Faithful
import SchemaDocs.Proofs.Site.Contents
import SchemaDocs.Proofs.Reference.Asked
import SchemaDocs.Proofs.Site.Duties
import SchemaDocs.Proofs.Site.Orders
import SchemaDocs.Proofs.Site.Schedules
import SchemaDocs.Proofs.Storage.Outside
import SchemaDocs.Proofs.Site.Copies
import SchemaDocs.Proofs.Site.Accounts
import SchemaDocs.Proofs.Site.Rebuilding
import SchemaDocs.Proofs.Navigation.Siblings
import SchemaDocs.Proofs.Navigation.Subtrees
import SchemaDocs.Proofs.Site.Separation
import SchemaDocs.Proofs.Storage.Similar
import SchemaDocs.Proofs.Schema.Comments
import SchemaDocs.Proofs.Reference.Comments
import SchemaDocs.Proofs.Site.Lockstep
import SchemaDocs.Proofs.Site.Comments
import SchemaDocs.Proofs.Schema.Nesting
import SchemaDocs.Proofs.Reference.Projection
import SchemaDocs.Proofs.Site.Counts
import SchemaDocs.Proofs.Navigation.Folders
import SchemaDocs.Proofs.Navigation.Canonical
import SchemaDocs.Proofs.Schema.Written
import SchemaDocs.Proofs.Storage.Ways
import SchemaDocs.Proofs.Site.Failures
import SchemaDocs.Proofs.Reference.Calls
import SchemaDocs.Proofs.Page.Files
import SchemaDocs.Proofs.Page.Lost
import SchemaDocs.Proofs.Page.Division
import SchemaDocs.Proofs.Navigation.Ordering
import SchemaDocs.Proofs.Navigation.Documents
import SchemaDocs.Proofs.Site.Listed
import SchemaDocs.Proofs.Markdown.Sentences
import SchemaDocs.Proofs.Reference.Summaries
import SchemaDocs.Proofs.Markdown.Seams
import SchemaDocs.Proofs.Page.Delimiters
import SchemaDocs.Proofs.Markdown.BlankLines
import SchemaDocs.Proofs.Page.Bodies
import SchemaDocs.Proofs.Markdown.Titles
import SchemaDocs.Proofs.Resource.Copying
import SchemaDocs.Proofs.Storage.Below
import SchemaDocs.Proofs.Resource.Targets
import SchemaDocs.Proofs.Resource.Providers
import SchemaDocs.Proofs.Text.LowerCase
import SchemaDocs.Proofs.Text.SlugForm
import SchemaDocs.Proofs.Storage.Parents
import SchemaDocs.Proofs.Storage.Adding
import SchemaDocs.Proofs.Project.Scaffolding
import SchemaDocs.Proofs.Project.SamplePages
import SchemaDocs.Proofs.Storage.Prefixes
import SchemaDocs.Proofs.Storage.Elsewhere
import SchemaDocs.Proofs.Site.Elsewhere
import SchemaDocs.Proofs.Project.Elsewhere
