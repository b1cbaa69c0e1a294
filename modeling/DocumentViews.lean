import DocumentViews.Registry
import DocumentViews.Proofs.SortedMap
import DocumentViews.Proofs.Compile
import DocumentViews.Proofs.Definition
import DocumentViews.Proofs.Catalog
import DocumentViews.Proofs.CatalogMaps
import DocumentViews.Proofs.Archive
import DocumentViews.Proofs.Archive.Listing
import DocumentViews.Proofs.Loading
import DocumentViews.Proofs.Mirror
import DocumentViews.Proofs.Number
import DocumentViews.Proofs.Pairs
import DocumentViews.Proofs.Query.Agreement
import DocumentViews.Proofs.Query.Hollow
import DocumentViews.Proofs.Query.Bound
import DocumentViews.Proofs.Query.RoundTrip
import DocumentViews.Proofs.Query.Settled
import DocumentViews.Proofs.Reload
import DocumentViews.Proofs.Reopen
import DocumentViews.Proofs.Admission.Waiting
import DocumentViews.Proofs.Failure
import DocumentViews.Proofs.FreshIds
import DocumentViews.Proofs.Newest
import DocumentViews.Proofs.Salvage
import DocumentViews.Proofs.Schema
import DocumentViews.Proofs.Query.Nesting
import DocumentViews.Proofs.Query.Stable
import DocumentViews.Proofs.Query.Respacing
import DocumentViews.Proofs.Query.Grouping
import DocumentViews.Proofs.ReadBack
import DocumentViews.Proofs.Deletion
import DocumentViews.Proofs.Supplied
import DocumentViews.Proofs.Alike
import DocumentViews.Proofs.Promotion
import DocumentViews.Proofs.Prepared
import DocumentViews.Proofs.Renewal
import DocumentViews.Proofs.Fields
import DocumentViews.Proofs.Removal
import DocumentViews.Proofs.Markers
import DocumentViews.Proofs.Archive.FileMap
import DocumentViews.Proofs.Created
import DocumentViews.Proofs.Query.Interleaving
import DocumentViews.Proofs.FieldNames
import DocumentViews.Proofs.Reordered
import DocumentViews.Proofs.Query.Descent
