import CommentSearch.Client
import CommentSearch.Yaml.Content

/-!
# Platforms

What a session uses and this library does not decide: how a YAML document is read, how the
connection of a client is made, and the local time zone. A session runs on the platform that is
given here unless it is given another one.

The YAML reader at hand takes one document of block and flow collections with plain and quoted
scalars, as settings are written. Anchors, aliases, tags, block scalars, complex keys and directives
are beyond it.
-/

namespace CommentSearch

/-- What a session uses from outside. -/
structure Platform where
  readYaml : YamlReader := Yaml.read?
  connect : Connector := Connection.overWeb
  zone : TimeZone := .universal

end CommentSearch
