import HomeHub.Model.Generate

/-!
# Models from a source of metadata

A source gives the samples and the catalog of a hub, or fails at either. The samples are asked for
first.
-/

namespace HomeHub

structure MetadataSource where
  samples : Except HubError (List EntitySample)
  catalog : Except HubError (List ServiceDomain)

namespace GeneratedModel

def ofSource (source : MetadataSource) (options : SchemaOptions) :
    Except HubError GeneratedModel := do
  let samples ← source.samples
  let catalog ← source.catalog
  (generate (assemble samples options) catalog).mapError .generation

end GeneratedModel

end HomeHub
