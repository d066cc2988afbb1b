import SqlMapper.Model.Basic

/-!
# The users sample

A small type model of users with addresses, the interface of their mapper, and the document of that
mapper.

## Main definitions

* `Sample.users`: the type model.
* `Sample.userMapper`: the document.
-/

namespace SqlMapper.Sample

/-- The name of the annotation that names parameters. -/
def paramName : String := "org.apache.ibatis.annotations.Param"

/-- A class of users. Its field `name` hides the property of that name. -/
def user : ClassDecl where
  name := "com.example.User"
  fields := [⟨"name", "java.lang.String"⟩, ⟨"address", "com.example.Address"⟩,
    ⟨"manager", "com.example.User"⟩]
  methods := [⟨"getAge", some "java.lang.Integer", []⟩, ⟨"isActive", some "boolean", []⟩,
    ⟨"getName", some "java.lang.Object", []⟩]

/-- A class of addresses. -/
def address : ClassDecl where
  name := "com.example.Address"
  fields := [⟨"city", "java.lang.String"⟩, ⟨"street", "java.lang.String"⟩]
  methods := [⟨"getZipCode", some "java.lang.String", []⟩]

/-- The interface of the mapper of users. -/
def userMapperInterface : ClassDecl where
  name := "com.example.UserMapper"
  methods := [
    ⟨"findByUser", none, [⟨"user", "com.example.User", [⟨paramName, some "user"⟩]⟩]⟩,
    ⟨"search", none, [⟨"user", "com.example.User", [⟨paramName, some "u"⟩]⟩,
      ⟨"limit", "int", [⟨"Param", none⟩]⟩, ⟨"offset", "int", []⟩]⟩,
    ⟨"countAll", none, []⟩]

/-- The type model of users. -/
def users : TypeModel :=
  TypeModel.ofClasses [user, address, userMapperInterface]

/-- The lines of the document of the mapper of users. -/
def userMapperLines : List String :=
  [
    "<?xml version=\"1.0\" encoding=\"UTF-8\"?>",
    "<!DOCTYPE mapper PUBLIC \"-//mybatis.org//DTD Mapper 3.0//EN\" \"http://mybatis.org/dtd/mybatis-3-mapper.dtd\">",
    "<mapper namespace=\"com.example.UserMapper\">",
    "  <resultMap id=\"userMap\" type=\"com.example.User\">",
    "    <result property=\"name\" column=\"name\"/>",
    "  </resultMap>",
    "  <select id=\"findByUser\" resultMap=\"userMap\">",
    "    SELECT * FROM users WHERE name = #\x7buser.name\x7d",
    "  </select>",
    "  <select id=\"search\" resultMap=\"userMap\">",
    "    SELECT * FROM users LIMIT #\x7blimit\x7d",
    "  </select>",
    "  <select id=\"countAll\" resultType=\"int\">",
    "    SELECT count(*) FROM users",
    "  </select>",
    "</mapper>"
  ]

/-- The document of the mapper of users. -/
def userMapper : String :=
  Text.join "\n" userMapperLines ++ "\n"

end SqlMapper.Sample
