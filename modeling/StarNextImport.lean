import StarNextImport.F32
import StarNextImport.Basic
import StarNextImport.Time
import StarNextImport.Counts
import StarNextImport.Aggregate
import StarNextImport.Metadata
import StarNextImport.Check
import StarNextImport.Prototype
import StarNextImport.Buckets
import StarNextImport.Records
import StarNextImport.Walk
import StarNextImport.Pipeline
import StarNextImport.Db
